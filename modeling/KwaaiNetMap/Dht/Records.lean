import KwaaiNetMap.Snapshot.Types

/-!
`Ext(64)` is a serialised value, `Ext(80)` a dictionary of subkeyed values.
-/

namespace KwaaiNetMap
variable (rmpv : Rmpv)

def unwrapExt (bytes : Bytes) (tag : Int) : Option Value :=
  match rmpv.readValue bytes with
  | some (.ext t payload) => if t = tag then rmpv.readValue payload else none
  | _ => none

def subkeyToString : Value → Option String
  | .string s => some s
  | .binary raw =>
    match rmpv.readValue raw with
    | some (.string s) => some s
    | _ => none
  | _ => none

/-- One `[subkey, value, expiration]` entry; its value is opaque bytes or the entry is dropped. -/
def dictionaryEntry (entry : Value) : Option (String × Bytes) := do
  let e ← entry.asArray
  let subkey ← subkeyToString rmpv (← e[0]?)
  match ← e[1]? with
  | .binary value => if subkey.isEmpty then none else some (subkey, value)
  | _ => none

def dictionaryEntries (bytes : Bytes) : List (String × Bytes) :=
  match unwrapExt rmpv bytes 80 with
  | none => []
  | some inner =>
    match inner.asArray with
    | none => []
    | some arr =>
      -- `[latest_expiration, ?, entries]`
      match (arr[2]?).bind Value.asArray with
      | none => []
      | some entries => entries.filterMap (dictionaryEntry rmpv)

/-- `ServerState` by its number; `-1` is the explicit "remove me now" tombstone. -/
def stateName (raw : Int) : String :=
  if raw = -1 ∨ raw = 0 then "offline"
  else if raw = 1 then "joining"
  else if raw = 2 then "online"
  else "unknown"

def setField (info : ServerInfo) (field : Value × Value) : ServerInfo :=
  let v := field.2
  match field.1.asStr.getD "" with
  | "start_block" => { info with startBlock := v.asI64.getD 0 }
  | "end_block" => { info with endBlock := v.asI64.getD 0 }
  | "public_name" => { info with publicName := v.asStr }
  | "version" => { info with version := v.asStr }
  | "network_rps" => { info with networkRps := v.asF64 }
  | "forward_rps" => { info with forwardRps := v.asF64 }
  | "inference_rps" => { info with inferenceRps := v.asF64 }
  | "torch_dtype" => { info with torchDtype := v.asStr }
  | "quant_type" => { info with quantType := v.asStr }
  | "using_relay" => { info with usingRelay := v.asBool }
  | "shard_loading" => { info with shardLoading := v.asBool }
  | "cache_tokens_left" => { info with cacheTokensLeft := v.asI64 }
  | "peer_id" => { info with peerId := v.asStr }
  | "vpk" => { info with vpk := rmpv.toJson v }
  | "trust_attestations" => { info with trustAttestations := (v.asArray.map List.length).getD 0 }
  | _ => info

def decodeServerInfo (bytes : Bytes) : Option ServerInfo := do
  let inner ← unwrapExt rmpv bytes 64
  match ← inner.asArray with
  | state :: throughput :: fields :: _ =>
    let info : ServerInfo :=
      { state := stateName (state.asI64.getD 0), throughput := throughput.asF64.getD 0.0 }
    return (← fields.asMap).foldl (setField rmpv) info
  | _ => none

structure ModelRegistration where
  dhtPrefix : String
  repository : String
  numBlocks : Int

def findField (fields : List (Value × Value)) (name : String) : Option Value :=
  (fields.find? (fun field => field.1.asStr == some name)).map Prod.snd

def decodeModelRegistry (bytes : Bytes) : List ModelRegistration :=
  (dictionaryEntries rmpv bytes).filterMap fun (dhtPrefix, value) => do
    let fields ← (← rmpv.readValue value).asMap
    return {
      dhtPrefix
      repository := ((findField fields "repository").bind Value.asStr).getD ""
      numBlocks := ((findField fields "num_blocks").bind Value.asI64).getD 0 }

/-! ### What the decoders let through -/

theorem setField_state (info : ServerInfo) (field : Value × Value) :
    (setField rmpv info field).state = info.state := by
  unfold setField
  dsimp only
  split <;> rfl

def SpanInI64 (info : ServerInfo) : Prop := Numeric.InI64 info.startBlock ∧ Numeric.InI64 info.endBlock

theorem getD_asI64_inI64 (v : Value) : Numeric.InI64 (v.asI64.getD 0) := by
  cases read : v.asI64 with
  | none => exact ⟨by decide, by decide⟩
  | some n => exact Value.asI64_inI64 read

theorem setField_span {info : ServerInfo} (fits : SpanInI64 info) (field : Value × Value) :
    SpanInI64 (setField rmpv info field) := by
  unfold setField
  dsimp only
  split
  · exact ⟨getD_asI64_inI64 _, fits.2⟩
  · exact ⟨fits.1, getD_asI64_inI64 _⟩
  all_goals exact fits

theorem foldl_setField {info : ServerInfo} (fits : SpanInI64 info) (fields : List (Value × Value)) :
    SpanInI64 (fields.foldl (setField rmpv) info) ∧ (fields.foldl (setField rmpv) info).state = info.state := by
  induction fields generalizing info with
  | nil => exact ⟨fits, rfl⟩
  | cons field rest ih =>
    obtain ⟨span, state⟩ := ih (setField_span rmpv fits field)
    exact ⟨span, state.trans (setField_state rmpv info field)⟩

theorem stateName_mem (raw : Int) : stateName raw ∈ ["offline", "joining", "online", "unknown"] := by
  unfold stateName
  split_ifs <;> decide

theorem decodeServerInfo_wellFormed {bytes : Bytes} {info : ServerInfo}
    (decoded : decodeServerInfo rmpv bytes = some info) :
    SpanInI64 info ∧ info.state ∈ ["offline", "joining", "online", "unknown"] := by
  simp only [decodeServerInfo, Option.bind_eq_bind, Option.bind_eq_some_iff] at decoded
  obtain ⟨inner, -, items, -, decoded⟩ := decoded
  split at decoded
  · rename_i state throughput fields _
    obtain ⟨pairs, -, folded⟩ := Option.bind_eq_some_iff.mp decoded
    obtain rfl := Option.some.inj folded
    have zero : Numeric.InI64 0 := by decide
    have initial : SpanInI64 { state := stateName (state.asI64.getD 0), throughput := throughput.asF64.getD 0.0 } :=
      ⟨zero, zero⟩
    obtain ⟨span, named⟩ := foldl_setField rmpv initial pairs
    refine ⟨span, ?_⟩
    rw [named]
    exact stateName_mem _
  · cases decoded

end KwaaiNetMap
