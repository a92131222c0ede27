import KwaaiNetMap.Collections.Fields
import KwaaiNetMap.Dht.Records

/-!
What a node writes about itself, typed field by field, with its map in any order and among fields the
decoder does not know. Decoding a written record yields what was announced, and the default of each field
that was not (`decodeServerInfo_published`).
-/

namespace KwaaiNetMap
open Collections Numeric

/-! ### What is announced -/

/-- `ServerState`, and the tombstone. -/
inductive ServerState where
  | tombstone | offline | joining | online

def ServerState.number : ServerState → Int
  | tombstone => -1
  | offline => 0
  | joining => 1
  | online => 2

def ServerState.name : ServerState → String
  | tombstone => "offline"
  | offline => "offline"
  | joining => "joining"
  | online => "online"

theorem stateName_number (state : ServerState) : stateName state.number = state.name := by
  cases state <;> decide

theorem number_inI64 (state : ServerState) : InI64 state.number := by
  cases state <;> decide

inductive Number where
  | integer (n : Int)
  | f32 (x : F32)
  | f64 (x : F64)

def Number.value : Number → Value
  | integer n => .integer n
  | f32 x => .f32 x
  | f64 x => .f64 x

def Number.toF64 : Number → F64
  | integer n => .ofFloat (intToFloat n)
  | f32 x => x.toF64
  | f64 x => x

theorem asF64_value (n : Number) : n.value.asF64 = some n.toF64 := by
  cases n <;> rfl

abbrev I64 := { n : Int // InI64 n }

theorem asI64_integer (n : I64) : (Value.integer n.1).asI64 = some n.1 := if_pos n.2

structure Announcement where
  state : ServerState
  throughput : Number
  startBlock : Option I64 := none
  endBlock : Option I64 := none
  publicName : Option String := none
  version : Option String := none
  networkRps : Option Number := none
  forwardRps : Option Number := none
  inferenceRps : Option Number := none
  torchDtype : Option String := none
  quantType : Option String := none
  usingRelay : Option Bool := none
  shardLoading : Option Bool := none
  cacheTokensLeft : Option I64 := none
  peerId : Option String := none
  vpk : Option Value := none
  trustAttestations : Option (List Value) := none

namespace Announcement

def fields (a : Announcement) : List (String × Option Value) := [
  ("start_block", a.startBlock.map fun n => .integer n.1),
  ("end_block", a.endBlock.map fun n => .integer n.1),
  ("public_name", a.publicName.map .string),
  ("version", a.version.map .string),
  ("network_rps", a.networkRps.map Number.value),
  ("forward_rps", a.forwardRps.map Number.value),
  ("inference_rps", a.inferenceRps.map Number.value),
  ("torch_dtype", a.torchDtype.map .string),
  ("quant_type", a.quantType.map .string),
  ("using_relay", a.usingRelay.map .boolean),
  ("shard_loading", a.shardLoading.map .boolean),
  ("cache_tokens_left", a.cacheTokensLeft.map fun n => .integer n.1),
  ("peer_id", a.peerId.map .string),
  ("vpk", a.vpk),
  ("trust_attestations", a.trustAttestations.map .array)]

def known (a : Announcement) : List (Value × Value) :=
  (present a.fields).map fun f => (.string f.1, f.2)

def info (rmpv : Rmpv) (a : Announcement) : ServerInfo :=
  { state := a.state.name
    throughput := a.throughput.toF64
    startBlock := (a.startBlock.map Subtype.val).getD 0
    endBlock := (a.endBlock.map Subtype.val).getD 0
    publicName := a.publicName
    version := a.version
    networkRps := a.networkRps.map Number.toF64
    forwardRps := a.forwardRps.map Number.toF64
    inferenceRps := a.inferenceRps.map Number.toF64
    torchDtype := a.torchDtype
    quantType := a.quantType
    usingRelay := a.usingRelay
    cacheTokensLeft := a.cacheTokensLeft.map Subtype.val
    shardLoading := a.shardLoading
    vpk := a.vpk.bind rmpv.toJson
    trustAttestations := (a.trustAttestations.map List.length).getD 0
    peerId := a.peerId }

end Announcement

def fieldNames : List String := [
  "start_block", "end_block", "public_name", "version", "network_rps", "forward_rps", "inference_rps",
  "torch_dtype", "quant_type", "using_relay", "shard_loading", "cache_tokens_left", "peer_id", "vpk",
  "trust_attestations"]

def keyOf (field : Value × Value) : String := field.1.asStr.getD ""

/-- A record's map: what is announced in any order, among fields of other names. -/
def Announcement.Arranged (a : Announcement) (fields : List (Value × Value)) : Prop :=
  ∃ unknown, fields.Perm (a.known ++ unknown) ∧ ∀ f ∈ unknown, keyOf f ∉ fieldNames

/-! ### One field of the map -/

theorem Announcement.names_nodup (a : Announcement) : (a.fields.map Prod.fst).Nodup :=
  (by decide : fieldNames.Nodup)

theorem filter_arranged {table : List (String × Option Value)} (nodup : (table.map Prod.fst).Nodup)
    {fields unknown : List (Value × Value)}
    (perm : fields.Perm (((present table).map fun f => (Value.string f.1, f.2)) ++ unknown))
    (others : ∀ f ∈ unknown, keyOf f ∉ table.map Prod.fst) {name : String} {o : Option Value}
    (held : table.lookup name = some o) :
    fields.filter (fun f => decide (keyOf f = name)) = (o.map fun v => (Value.string name, v)).toList := by
  have isName : name ∈ table.map Prod.fst := by
    obtain ⟨before, after, split, -⟩ := List.lookup_eq_some_iff.mp held
    rw [split]
    simp
  have announced : ((present table).map fun f => (Value.string f.1, f.2)).filter
      (fun f => decide (keyOf f = name)) = (o.map fun v => (Value.string name, v)).toList := by
    rw [List.filter_map]
    change ((present table).filter fun f => decide (f.1 = name)).map _ = _
    rw [filter_present nodup, held]
    cases o <;> rfl
  have skipped : unknown.filter (fun f => decide (keyOf f = name)) = [] := by
    rw [List.filter_eq_nil_iff]
    intro f member
    simpa using fun same : keyOf f = name => others f member (same ▸ isName)
  have one := perm.filter fun f => decide (keyOf f = name)
  rw [List.filter_append, announced, skipped, List.append_nil] at one
  cases o with
  | none => exact List.perm_nil.mp one
  | some v => exact List.perm_singleton.mp one

theorem Announcement.Arranged.named {a : Announcement} {fields : List (Value × Value)}
    (arranged : a.Arranged fields) {name : String} {o : Option Value} (held : a.fields.lookup name = some o) :
    fields.filter (fun f => decide (keyOf f = name)) = (o.map fun v => (Value.string name, v)).toList := by
  obtain ⟨unknown, perm, others⟩ := arranged
  exact filter_arranged a.names_nodup perm others held

section
variable {rmpv : Rmpv} {β : Type} {π : ServerInfo → β} {name : String} {read : Value → β}

theorem foldl_setField_field
    (step : ∀ info field, π (setField rmpv info field) = if keyOf field = name then read field.2 else π info)
    (fields : List (Value × Value)) (info : ServerInfo) :
    π (fields.foldl (setField rmpv) info) =
      (fields.filter fun f => decide (keyOf f = name)).foldl (fun _ f => read f.2) (π info) := by
  induction fields generalizing info with
  | nil => rfl
  | cons field rest ih =>
    rw [List.foldl_cons, ih, step]
    by_cases here : keyOf field = name
    · rw [if_pos here, List.filter_cons_of_pos (by simpa using here), List.foldl_cons]
    · rw [if_neg here, List.filter_cons_of_neg (by simpa using here)]

theorem foldl_setField_other (π : ServerInfo → β) (step : ∀ info field, π (setField rmpv info field) = π info)
    (fields : List (Value × Value)) (info : ServerInfo) : π (fields.foldl (setField rmpv) info) = π info := by
  induction fields generalizing info with
  | nil => rfl
  | cons field rest ih => rw [List.foldl_cons, ih, step]

theorem Announcement.Arranged.field {a : Announcement} {fields : List (Value × Value)}
    (arranged : a.Arranged fields) (name : String) {o : Option Value} (held : a.fields.lookup name = some o)
    (step : ∀ info field, π (setField rmpv info field) = if keyOf field = name then read field.2 else π info)
    (info : ServerInfo) : π (fields.foldl (setField rmpv) info) = (o.map read).getD (π info) := by
  rw [foldl_setField_field step, arranged.named held]
  cases o <;> rfl

end

theorem setField_eq (rmpv : Rmpv) (info : ServerInfo) (field : Value × Value) :
    setField rmpv info field =
      { state := info.state
        throughput := info.throughput
        startBlock := if keyOf field = "start_block" then field.2.asI64.getD 0 else info.startBlock
        endBlock := if keyOf field = "end_block" then field.2.asI64.getD 0 else info.endBlock
        publicName := if keyOf field = "public_name" then field.2.asStr else info.publicName
        version := if keyOf field = "version" then field.2.asStr else info.version
        networkRps := if keyOf field = "network_rps" then field.2.asF64 else info.networkRps
        forwardRps := if keyOf field = "forward_rps" then field.2.asF64 else info.forwardRps
        inferenceRps := if keyOf field = "inference_rps" then field.2.asF64 else info.inferenceRps
        torchDtype := if keyOf field = "torch_dtype" then field.2.asStr else info.torchDtype
        quantType := if keyOf field = "quant_type" then field.2.asStr else info.quantType
        usingRelay := if keyOf field = "using_relay" then field.2.asBool else info.usingRelay
        cacheTokensLeft := if keyOf field = "cache_tokens_left" then field.2.asI64 else info.cacheTokensLeft
        shardLoading := if keyOf field = "shard_loading" then field.2.asBool else info.shardLoading
        vpk := if keyOf field = "vpk" then rmpv.toJson field.2 else info.vpk
        trustAttestations :=
          if keyOf field = "trust_attestations" then (field.2.asArray.map List.length).getD 0
          else info.trustAttestations
        peerId := if keyOf field = "peer_id" then field.2.asStr else info.peerId } := by
  have known : setField rmpv info field = setField rmpv info (.string (keyOf field), field.2) := rfl
  rw [known]
  generalize keyOf field = name
  unfold setField
  simp only [Value.asStr, Option.getD_some]
  split
  all_goals simp_all

/-! ### Reading back each kind -/

theorem read_integer (o : Option I64) :
    ((o.map fun n => Value.integer n.1).map fun v => v.asI64.getD 0).getD 0 = (o.map Subtype.val).getD 0 := by
  cases o with
  | none => rfl
  | some n => simp [asI64_integer]

theorem read_maybe_integer (o : Option I64) :
    ((o.map fun n => Value.integer n.1).map Value.asI64).getD none = o.map Subtype.val := by
  cases o with
  | none => rfl
  | some n => simp [asI64_integer]

theorem read_string (o : Option String) : ((o.map Value.string).map Value.asStr).getD none = o := by
  cases o <;> rfl

theorem read_boolean (o : Option Bool) : ((o.map Value.boolean).map Value.asBool).getD none = o := by
  cases o <;> rfl

theorem read_number (o : Option Number) :
    ((o.map Number.value).map Value.asF64).getD none = o.map Number.toF64 := by
  cases o with
  | none => rfl
  | some n => exact asF64_value n

theorem read_json (rmpv : Rmpv) (o : Option Value) : (o.map rmpv.toJson).getD none = o.bind rmpv.toJson := by
  cases o <;> rfl

theorem read_count (o : Option (List Value)) :
    ((o.map Value.array).map fun v => (v.asArray.map List.length).getD 0).getD 0 =
      (o.map List.length).getD 0 := by
  cases o <;> rfl

/-! ### The record -/

attribute [ext] ServerInfo

theorem Announcement.Arranged.folded {a : Announcement} {fields : List (Value × Value)}
    (arranged : a.Arranged fields) (rmpv : Rmpv) :
    fields.foldl (setField rmpv) { state := a.state.name, throughput := a.throughput.toF64 } =
      a.info rmpv := by
  have set := setField_eq rmpv
  apply ServerInfo.ext
  · exact foldl_setField_other ServerInfo.state (fun i f => by rw [set]) fields _
  · exact foldl_setField_other ServerInfo.throughput (fun i f => by rw [set]) fields _
  · exact (arranged.field "start_block" rfl (fun i f => congrArg ServerInfo.startBlock (set i f)) _).trans
      (read_integer _)
  · exact (arranged.field "end_block" rfl (fun i f => congrArg ServerInfo.endBlock (set i f)) _).trans
      (read_integer _)
  · exact (arranged.field "public_name" rfl (fun i f => congrArg ServerInfo.publicName (set i f)) _).trans
      (read_string _)
  · exact (arranged.field "version" rfl (fun i f => congrArg ServerInfo.version (set i f)) _).trans
      (read_string _)
  · exact (arranged.field "network_rps" rfl (fun i f => congrArg ServerInfo.networkRps (set i f)) _).trans
      (read_number _)
  · exact (arranged.field "forward_rps" rfl (fun i f => congrArg ServerInfo.forwardRps (set i f)) _).trans
      (read_number _)
  · exact (arranged.field "inference_rps" rfl (fun i f => congrArg ServerInfo.inferenceRps (set i f)) _).trans
      (read_number _)
  · exact (arranged.field "torch_dtype" rfl (fun i f => congrArg ServerInfo.torchDtype (set i f)) _).trans
      (read_string _)
  · exact (arranged.field "quant_type" rfl (fun i f => congrArg ServerInfo.quantType (set i f)) _).trans
      (read_string _)
  · exact (arranged.field "using_relay" rfl (fun i f => congrArg ServerInfo.usingRelay (set i f)) _).trans
      (read_boolean _)
  · exact (arranged.field "cache_tokens_left" rfl (fun i f => congrArg ServerInfo.cacheTokensLeft (set i f)) _).trans
      (read_maybe_integer _)
  · exact (arranged.field "shard_loading" rfl (fun i f => congrArg ServerInfo.shardLoading (set i f)) _).trans
      (read_boolean _)
  · exact (arranged.field "vpk" rfl (fun i f => congrArg ServerInfo.vpk (set i f)) _).trans
      (read_json rmpv _)
  · exact (arranged.field "trust_attestations" rfl (fun i f => congrArg ServerInfo.trustAttestations (set i f)) _).trans
      (read_count _)
  · exact (arranged.field "peer_id" rfl (fun i f => congrArg ServerInfo.peerId (set i f)) _).trans
      (read_string _)

section
variable (write : Value → Bytes)

def Announcement.value (a : Announcement) (fields : List (Value × Value)) : Value :=
  .array [.integer a.state.number, a.throughput.value, .map fields]

def Announcement.published (a : Announcement) (fields : List (Value × Value)) : Value :=
  .ext 64 (write (a.value fields))

def Announcement.parts (a : Announcement) (fields : List (Value × Value)) : List Value :=
  [a.value fields, a.published write fields]

theorem unwrapExt_written {rmpv : Rmpv} {v : Value} {tag : Int}
    (inner : rmpv.readValue (write v) = some v)
    (outer : rmpv.readValue (write (.ext tag (write v))) = some (.ext tag (write v))) :
    unwrapExt rmpv (write (.ext tag (write v))) tag = some v := by
  rw [unwrapExt, outer]
  exact (if_pos rfl).trans inner

theorem decodeServerInfo_published {rmpv : Rmpv} {a : Announcement} {fields : List (Value × Value)}
    (inverts : ∀ v ∈ a.parts write fields, rmpv.readValue (write v) = some v) (arranged : a.Arranged fields) :
    decodeServerInfo rmpv (write (a.published write fields)) = some (a.info rmpv) := by
  have opened : unwrapExt rmpv (write (a.published write fields)) 64 = some (a.value fields) :=
    unwrapExt_written write (inverts _ List.mem_cons_self)
      (inverts _ (List.mem_cons_of_mem _ List.mem_cons_self))
  have number : (Value.integer a.state.number).asI64 = some a.state.number := if_pos (number_inI64 a.state)
  have folded := arranged.folded rmpv
  rw [decodeServerInfo, opened]
  simp only [Announcement.value, Value.asArray, Value.asMap, Option.bind_eq_bind, Option.bind_some, number,
    asF64_value, Option.getD_some, stateName_number, folded, Option.pure_def]

end

end KwaaiNetMap
