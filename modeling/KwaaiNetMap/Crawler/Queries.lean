import KwaaiNetMap.Collections.BTree
import KwaaiNetMap.Crawler.Bootstrap

/-!
The registry read, the block queries of each model and the capability queries, and the folds that
turn their responses into per-peer records.
-/

namespace KwaaiNetMap
open Collections

/-- Only used when the registry comes back empty. -/
def fallbackPrefixes : List String :=
  ["Llama-3-1-8B-Instruct", "Meta-Llama-3-1-8B-Instruct", "Llama-2-70b-chat-hf", "bloom"]

def fallbackBlocks : Int := 80

def maxBlocks : Int := 512

def capabilityKeys : List String := ["_kwaai.vpk.nodes", "_kwaai.inference.nodes"]

structure Model where
  dhtPrefix : String
  repository : String
  numBlocks : Int
  deriving DecidableEq

structure PeerModelEntry where
  blocks : BTreeSet Int
  info : ServerInfo

/-! ### The registry -/

section Registry
variable (rmpv : Rmpv)

def modelOf (reg : ModelRegistration) : Model :=
  { dhtPrefix := reg.dhtPrefix, repository := reg.repository,
    numBlocks := max 1 (min reg.numBlocks maxBlocks) }

def registerResult (found : BTreeMap String Model) (result : FindResult) : BTreeMap String Model :=
  if result.value.isEmpty then found
  else (decodeModelRegistry rmpv result.value).foldl
    (fun found reg => found.orInsert reg.dhtPrefix (modelOf reg)) found

def registerResponse (found : BTreeMap String Model) (resp : FindResponse) : BTreeMap String Model :=
  resp.results.foldl (registerResult rmpv) found

variable (net : Network) (ourDhtid : Bytes)

def readRegistry : List String → BTreeMap String Model → Pass → BTreeMap String Model × Pass
  | [], found, pass => (found, pass)
  | addr :: rest, found, pass =>
    match rpcFind net ourDhtid pass addr [dhtKey net "_petals.models"] with
    | (none, pass) => readRegistry rest found pass
    | (some resp, pass) =>
      let found := registerResponse rmpv found resp
      if found.isEmpty then readRegistry rest found pass else (found, pass)

def fallbackModels : List Model :=
  fallbackPrefixes.map fun p => { dhtPrefix := p, repository := "", numBlocks := fallbackBlocks }

def discoverModels (pass : Pass) : List Model × Pass :=
  let (found, pass) := readRegistry rmpv net ourDhtid pass.set.live ∅ pass
  (if found.isEmpty then fallbackModels else found.values, pass)

end Registry

/-! ### Servers under block keys -/

section Collect
variable (rmpv : Rmpv)

/-- Servers carried by one result: a dictionary holds many, subkeyed by peer id; a regular value holds
one, which names its peer itself. -/
def serversIn (resultType : Int) (value : Bytes) : List (String × ServerInfo) :=
  if resultType = 2 then
    (dictionaryEntries rmpv value).filterMap fun (peerId, raw) =>
      (decodeServerInfo rmpv raw).map fun info => (peerId, info)
  else if resultType = 1 then
    match decodeServerInfo rmpv value with
    | some info =>
      match info.peerId with
      | some peerId => [(peerId, info)]
      | none => []
    | none => []
  else []

def collectEntry (block : Int) (info : ServerInfo) (held : Option PeerModelEntry) : PeerModelEntry :=
  let entry := held.getD { blocks := ∅, info }
  let entry := { entry with blocks := BTreeSet.insert entry.blocks block }
  if info.state = "online" then { entry with info } else entry

def collectServer (block : Int) (out : HashMap String PeerModelEntry) (server : String × ServerInfo) :
    HashMap String PeerModelEntry :=
  out.upsert server.1 (collectEntry block server.2)

def collectResult (out : HashMap String PeerModelEntry) (item : FindResult × Nat) :
    HashMap String PeerModelEntry :=
  let (result, index) := item
  if result.value.isEmpty then out
  else (serversIn rmpv result.resultType result.value).foldl (collectServer index) out

/-- Results stand in the order of the keys sent: the index of a result is its block. -/
def collectResponse (out : HashMap String PeerModelEntry) (resp : FindResponse) :
    HashMap String PeerModelEntry :=
  resp.results.zipIdx.foldl (collectResult rmpv) out

variable (net : Network) (ourDhtid : Bytes)

def blockKeys (model : Model) : List Bytes :=
  (List.range model.numBlocks.toNat).map fun b => dhtKey net s!"{model.dhtPrefix}.{b}"

def collectFrom (keys : List Bytes) :
    List String → HashMap String PeerModelEntry → Pass → HashMap String PeerModelEntry × Pass
  | [], out, pass => (out, pass)
  | addr :: rest, out, pass =>
    match rpcFind net ourDhtid pass addr keys with
    | (none, pass) => collectFrom keys rest out pass
    | (some resp, pass) => collectFrom keys rest (collectResponse rmpv out resp) pass

def collectModel (pass : Pass) (model : Model) (out : HashMap String PeerModelEntry) :
    HashMap String PeerModelEntry × Pass :=
  collectFrom rmpv net ourDhtid (blockKeys net model) pass.set.live out pass

def collectModels (models : List Model) (pass : Pass) :
    BTreeMap String (HashMap String PeerModelEntry) × Pass :=
  models.foldl
    (fun (perModel, pass) model =>
      let entry := (perModel.get? model.dhtPrefix).getD ∅
      let (entry, pass) := collectModel rmpv net ourDhtid pass model entry
      (perModel.insert model.dhtPrefix entry, pass))
    (∅, pass)

end Collect

/-! ### Capability registries -/

section Capability
variable (rmpv : Rmpv)

def capabilityInfo (raw : Bytes) : ServerInfo :=
  (decodeServerInfo rmpv raw).getD { state := "unknown" }

def capabilityResult (out : HashMap String ServerInfo) (result : FindResult) : HashMap String ServerInfo :=
  if result.value.isEmpty then out
  else (dictionaryEntries rmpv result.value).foldl
    (fun out (peerId, raw) => out.orInsert peerId (capabilityInfo rmpv raw)) out

def capabilityResponse (out : HashMap String ServerInfo) (resp : FindResponse) : HashMap String ServerInfo :=
  resp.results.foldl (capabilityResult rmpv) out

variable (net : Network) (ourDhtid : Bytes)

def capabilityFrom (keys : List Bytes) :
    List String → HashMap String ServerInfo → Pass → HashMap String ServerInfo × Pass
  | [], out, pass => (out, pass)
  | addr :: rest, out, pass =>
    match rpcFind net ourDhtid pass addr keys with
    | (none, pass) => capabilityFrom keys rest out pass
    | (some resp, pass) => capabilityFrom keys rest (capabilityResponse rmpv out resp) pass

def collectCapability (pass : Pass) (key : String) (out : HashMap String ServerInfo) :
    HashMap String ServerInfo × Pass :=
  capabilityFrom rmpv net ourDhtid [dhtKey net key] pass.set.live out pass

def collectCapabilities (pass : Pass) : HashMap String ServerInfo × Pass :=
  capabilityKeys.foldl
    (fun (out, pass) key => collectCapability rmpv net ourDhtid pass key out) (∅, pass)

end Capability

end KwaaiNetMap
