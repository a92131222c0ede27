import KwaaiNetMap.Collections.Grouping
import KwaaiNetMap.Page.Table
import KwaaiNetMap.Systems.Runs
import KwaaiNetMap.Text.Search

/-!
The graph of a document: two bootstraps, two API nodes and a node for each model, and a node for each peer,
numbered within its model. The network takes one node after another and throws on a name it has, so a model named
as a numbered peer is stops the drawing there; every other document is drawn whole (`topology_graph`).
-/

namespace KwaaiNetMap.Page
open Collections Systems

structure VisNode where
  id : String
  label : String
  shape : String
  size : Float
  background : Option String := none
  border : Option String := none
  level : Int
  group : Option String := none
  status : Option String := none
  location : Option String := none
  throughput : Option String := none
  connectionType : Option String := none
  title : Option String := none
  /-- Where the layout put the node, once it did. -/
  position : Option (Float × Float) := none
  fixed : Bool := false

/-- `from` and `to`. -/
structure VisEdge where
  source : String
  target : String
  dashes : Bool := false
  deriving DecidableEq

/-- What the network holds, and the box of each model with its color and its nodes. -/
structure Graph where
  nodes : List VisNode := []
  edges : List VisEdge := []
  modelGroups : List (String × Option String × List String) := []

structure Topology extends Graph where
  /-- The drawing came to its end. -/
  whole : Bool
  /-- No node kept its place, so the view is fitted anew. -/
  fitted : Bool

inductive Draw where
  | node (node : VisNode)
  | edges (edges : List VisEdge)
  | box (modelName : String) (color : Option String) (nodes : List String)

/-- `vis.DataSet`, as far as the page goes by it: what a set holds after `add`, absent where that throws, and after
`update`. Edges bring no id of their own. -/
structure DataSet where
  add : List VisNode → VisNode → Option (List VisNode)
  addEdges : List VisEdge → List VisEdge → List VisEdge
  update : List VisNode → List (String × Float × Float) → List VisNode

def VisNode.placed (places : List (String × Float × Float)) (node : VisNode) : VisNode :=
  match places.lookup node.id with
  | some place => { node with position := some place, fixed := true }
  | none => node

/-- What the documentation of `vis.DataSet` says: `add` fails on an item with an id that is there, and `update` merges
into the items it names. -/
structure DataSet.Documented (vis : DataSet) : Prop where
  add_new : ∀ nodes node, node.id ∉ nodes.map VisNode.id → vis.add nodes node = some (nodes ++ [node])
  add_held : ∀ nodes node, node.id ∈ nodes.map VisNode.id → vis.add nodes node = none
  addEdges : ∀ held edges, vis.addEdges held edges = held ++ edges
  update : ∀ nodes places, (∀ place ∈ places, place.1 ∈ nodes.map VisNode.id) →
    vis.update nodes places = nodes.map (VisNode.placed places)

def DataSet.listed : DataSet where
  add nodes node := if node.id ∈ nodes.map VisNode.id then none else some (nodes ++ [node])
  addEdges held edges := held ++ edges
  update nodes places := nodes.map (VisNode.placed places)

theorem DataSet.listed_documented : DataSet.listed.Documented where
  add_new _ _ absent := if_neg absent
  add_held _ _ held := if_pos held
  addEdges _ _ := rfl
  update _ _ _ := rfl

def Graph.draw (vis : DataSet) (graph : Graph) : Draw → Option Graph
  | .node node => (vis.add graph.nodes node).map fun nodes => { graph with nodes }
  | .edges edges => some { graph with edges := vis.addEdges graph.edges edges }
  | .box modelName color nodes => some { graph with modelGroups := graph.modelGroups ++ [(modelName, color, nodes)] }

def colorPalette : List String := [
  "#4e79a7", "#f28e2c", "#e15759", "#76b7b2", "#59a14f", "#edc949", "#af7aa1", "#ff9da7", "#9c755f", "#bab0ab"]

/-- `CONNECTION_TYPE_STYLE`, as far as the topology goes. -/
def connectionTypeShape (type : String) : String :=
  ([("Direct", "dot"), ("NAT", "triangle"), ("Relay", "diamond")].lookup type).getD "diamond"

/-! ### Names -/

def bootstrapIds : List String := ["bootstrap-1", "bootstrap-2"]

def apiId (k : String) (modelName : String) : String := "api-" ++ k ++ "-" ++ modelName

def modelNodeId (modelName : String) : String := "model-" ++ modelName

def serverId (modelName : String) (serverIndex : Nat) : String := modelName ++ "-server-" ++ Nat.repr serverIndex

/-! ### The graph -/

def rowsByModel (data : Document) : List (String × List Row) :=
  groups (fun row => orElse row.model noModel) (peerRows data)

def modelNames (data : Document) : List String :=
  ((rowsByModel data).map Prod.fst).filter fun name => name ≠ noModel

/-- Peers without a model are grey; the palette goes round the others. A model named `__proto__`, which no object takes
as a key of its own, is left out. -/
def modelColor (data : Document) (modelName : String) : Option String :=
  if modelName = noModel then some "#8a8a8a"
  else ((modelNames data).idxOf? modelName).bind fun index => colorPalette[index % colorPalette.length]?

def bootstrapNodes : List VisNode := [
  { id := "bootstrap-1", label := "Bootstrap-1", shape := "diamond", size := 35, background := some "#8A2BE2",
    border := some "#4B0082", level := -1, fixed := true },
  { id := "bootstrap-2", label := "Bootstrap-2", shape := "diamond", size := 35, background := some "#8A2BE2",
    border := some "#4B0082", level := -1, fixed := true }]

section
variable (browser : Browser) (data : Document)

def apiNode (k modelName : String) : VisNode :=
  { id := apiId k modelName
    label := "API-" ++ k ++ " (" ++ modelName ++ ")"
    shape := "hexagon"
    size := 30
    background := modelColor data modelName
    border := some "#000000"
    level := 0 }

def modelNode (modelName : String) : VisNode :=
  { id := modelNodeId modelName, label := modelName, group := some modelName, shape := "dot", size := 35, level := 1 }

def serverSize (throughput : Option Float) : Float :=
  match throughput with
  | none => 20
  | some x => if x == 0 || x.isNaN then 20 else min (20 + x / 50) 40

def serverNode (modelName : String) (server : Server) (serverIndex : Nat) : VisNode :=
  let location := locationInfo server
  let publicName := (nameAndVersion server).name
  let connectionType := getConnectionType browser server
  { id := serverId modelName serverIndex
    label := if publicName ≠ "N/A" then publicName else "Server " ++ Nat.repr (serverIndex + 1)
    group := some modelName
    status := some (serverStatus browser server)
    location := some location
    throughput := some (throughputText browser server.throughput)
    connectionType := some connectionType
    title := some ("Model: " ++ modelLabel browser server modelName ++ "<br>Sharding: " ++
      serverStatus browser server ++ "<br>Location: " ++ location)
    level := 2
    shape := connectionTypeShape connectionType
    background := if server.state = "online" then modelColor data modelName else some "#d3d3d3"
    border := if server.state = "offline" then some "#a9a9a9" else modelColor data modelName
    size := serverSize server.throughput }

def apiEdges (modelName : String) : List VisEdge := [
  { source := "bootstrap-1", target := apiId "1" modelName },
  { source := "bootstrap-1", target := apiId "2" modelName },
  { source := "bootstrap-2", target := apiId "1" modelName },
  { source := "bootstrap-2", target := apiId "2" modelName }]

def modelEdges (modelName : String) : List VisEdge := [
  { source := apiId "1" modelName, target := modelNodeId modelName },
  { source := apiId "2" modelName, target := modelNodeId modelName }]

def serverEdges (modelName : String) (serverIndex : Nat) : List VisEdge :=
  (if modelName ≠ noModel then
    [{ source := modelNodeId modelName, target := serverId modelName serverIndex }] else []) ++ [
  { source := "bootstrap-1", target := serverId modelName serverIndex, dashes := true },
  { source := "bootstrap-2", target := serverId modelName serverIndex, dashes := true }]

def numbered : List (String × Row × Nat) :=
  (rowsByModel data).flatMap fun (modelName, rows) =>
    rows.zipIdx.map fun (row, serverIndex) => (modelName, row, serverIndex)

def upperDraws : List Draw :=
  let names := modelNames data
  bootstrapNodes.map .node ++ names.map (fun name => .edges (apiEdges name)) ++
    (names.flatMap fun name => [apiNode data "1" name, apiNode data "2" name]).map .node ++
    names.flatMap fun name => [
      .node (modelNode name),
      .box name (modelColor data name) [modelNodeId name, apiId "1" name, apiId "2" name],
      .edges (modelEdges name)]

def peerDraws (peer : String × Row × Nat) : List Draw := [
  .node (serverNode browser data peer.1 peer.2.1.server peer.2.2), .edges (serverEdges peer.1 peer.2.2)]

def positionIn (nodes : List VisNode) (id : String) : Option (Float × Float) :=
  (nodes.find? fun node => node.id == id).bind VisNode.position

def savedPlaces (existing nodes : List VisNode) : List (String × Float × Float) :=
  nodes.filterMap fun node => (positionIn existing node.id).map fun position => (node.id, position)

def updateNetworkView (vis : DataSet) (existing : List VisNode) : Topology :=
  let (graph, whole) := runFar (Graph.draw vis) {} (upperDraws data ++ (numbered data).flatMap (peerDraws browser data))
  if whole then
    let saved := savedPlaces existing graph.nodes
    { graph with
      nodes := if saved.isEmpty then graph.nodes else vis.update graph.nodes saved
      whole, fitted := saved.isEmpty }
  else { graph with whole, fitted := false }

end

/-! ### Distinct names -/

theorem apiId_inj {k k' : String} (single : k.toList.length = k'.toList.length) {name name' : String}
    (same : apiId k name = apiId k' name') : k = k' ∧ name = name' := by
  have spelled := congrArg String.toList same
  simp only [apiId, String.toList_append, List.append_assoc, List.append_cancel_left_eq] at spelled
  obtain ⟨front, rest⟩ := List.append_inj spelled single
  exact ⟨String.toList_injective front, String.toList_injective (List.append_cancel_left rest)⟩

theorem modelNodeId_inj {name name' : String} (same : modelNodeId name = modelNodeId name') : name = name' := by
  have spelled := congrArg String.toList same
  simp only [modelNodeId, String.toList_append] at spelled
  exact String.toList_injective (List.append_cancel_left spelled)

theorem toList_serverId (name : String) (index : Nat) :
    (serverId name index).toList = name.toList ++ "-server".toList ++ '-' :: (Nat.repr index).toList := by
  rw [serverId, String.toList_append, String.toList_append, List.append_assoc, List.append_assoc]
  rfl

theorem serverId_inj {name name' : String} {index index' : Nat} (same : serverId name index = serverId name' index') :
    name = name' ∧ index = index' := by
  have spelled := congrArg String.toList same
  rw [toList_serverId, toList_serverId] at spelled
  obtain ⟨front, number⟩ := Text.numbered_inj (by decide) spelled
  exact ⟨String.toList_injective (List.append_cancel_right front), number⟩

theorem serverId_not_bootstrap (name : String) (index : Nat) : serverId name index ∉ bootstrapIds := by
  intro member
  have split : ∃ digit, (serverId name index).toList = "bootstrap".toList ++ '-' :: [digit] ∧ '-' ≠ digit := by
    rcases List.mem_cons.mp member with first | second
    · exact ⟨'1', by rw [first]; decide, by decide⟩
    · exact ⟨'2', by rw [List.mem_singleton.mp second]; decide, by decide⟩
  obtain ⟨digit, spelled, other⟩ := split
  rw [toList_serverId] at spelled
  obtain ⟨front, -⟩ := Text.last_cut_unique (Text.not_digit_not_mem_repr (by decide) index)
    (fun member => other (List.mem_singleton.mp member)) spelled
  have dash : '-' ∈ "bootstrap".toList := by
    rw [← front]
    exact List.mem_append_right _ (by decide)
  exact absurd dash (by decide)

def fixedIds (names : List String) : List String :=
  bootstrapIds ++ names.flatMap (fun name => [apiId "1" name, apiId "2" name]) ++ names.map modelNodeId

theorem mem_fixedIds {names : List String} {id : String} :
    id ∈ fixedIds names ↔
      id ∈ bootstrapIds ∨ ∃ name ∈ names, id ∈ [apiId "1" name, apiId "2" name, modelNodeId name] := by
  simp only [fixedIds, List.mem_append, List.mem_flatMap, List.mem_map, List.mem_cons, List.not_mem_nil, or_false]
  constructor
  · rintro ((bootstrap | ⟨name, member, first | second⟩) | ⟨name, member, same⟩)
    · exact Or.inl bootstrap
    · exact Or.inr ⟨name, member, Or.inl first⟩
    · exact Or.inr ⟨name, member, Or.inr (Or.inl second)⟩
    · exact Or.inr ⟨name, member, Or.inr (Or.inr same.symm)⟩
  · rintro (bootstrap | ⟨name, member, first | second | model⟩)
    · exact Or.inl (Or.inl bootstrap)
    · exact Or.inl (Or.inr ⟨name, member, Or.inl first⟩)
    · exact Or.inl (Or.inr ⟨name, member, Or.inr second⟩)
    · exact Or.inr ⟨name, member, model.symm⟩

theorem head_apiId (k name : String) : (apiId k name).toList.head? = some 'a' := by
  simp [apiId, String.toList_append]

theorem head_modelNodeId (name : String) : (modelNodeId name).toList.head? = some 'm' := by
  simp [modelNodeId, String.toList_append]

theorem head_bootstrap {id : String} (member : id ∈ bootstrapIds) : id.toList.head? = some 'b' := by
  rcases List.mem_cons.mp member with rfl | second
  · rfl
  · obtain rfl := List.mem_singleton.mp second
    rfl

theorem fixedIds_nodup {names : List String} (nodup : names.Nodup) : (fixedIds names).Nodup := by
  have api : (names.flatMap fun name => [apiId "1" name, apiId "2" name]).Nodup := by
    refine List.nodup_flatMap.mpr ⟨?_, ?_⟩
    · intro name _
      have apart : apiId "1" name ≠ apiId "2" name := fun same => absurd (apiId_inj (by rfl) same).1 (by decide)
      simpa using apart
    · refine nodup.imp fun {a b} different id here there => different ?_
      simp only [List.mem_cons, List.not_mem_nil, or_false] at here there
      rcases here with rfl | rfl <;> rcases there with same | same <;> exact (apiId_inj (by rfl) same).2
  have tier (id : String) (member : id ∈ names.flatMap fun name => [apiId "1" name, apiId "2" name]) :
      id.toList.head? = some 'a' := by
    obtain ⟨name, -, either⟩ := List.mem_flatMap.mp member
    simp only [List.mem_cons, List.not_mem_nil, or_false] at either
    rcases either with rfl | rfl <;> exact head_apiId _ _
  unfold fixedIds
  refine List.nodup_append.mpr ⟨List.nodup_append.mpr ⟨by decide, api, ?_⟩,
    nodup.map fun _ _ same => modelNodeId_inj same, ?_⟩
  · intro id bootstrap other member same
    have first := head_bootstrap bootstrap
    rw [same, tier other member] at first
    exact absurd first (by decide)
  · intro id upper other member same
    obtain ⟨name, -, rfl⟩ := List.mem_map.mp member
    have last := head_modelNodeId name
    rw [← same] at last
    rcases List.mem_append.mp upper with bootstrap | api
    · rw [head_bootstrap bootstrap] at last
      exact absurd last (by decide)
    · rw [tier id api] at last
      exact absurd last (by decide)

/-! ### Peers -/

section
variable (data : Document)

def serverIds : List String := (numbered data).map fun (name, _, index) => serverId name index

theorem modelNames_nodup : (modelNames data).Nodup := (groups_nodup _ _).filter _

theorem numbered_perm : ((numbered data).map fun peer => peer.2.1).Perm (peerRows data) := by
  have rows : (numbered data).map (fun peer => peer.2.1) = (rowsByModel data).flatMap Prod.snd := by
    rw [numbered, List.map_flatMap]
    refine List.flatMap_congr fun entry _ => ?_
    rw [List.map_map]
    exact List.zipIdx_map_fst 0 entry.2
  exact rows ▸ groups_perm _ _

theorem mem_numbered {name : String} {row : Row} {index : Nat} :
    (name, row, index) ∈ numbered data ↔ ∃ rows, (name, rows) ∈ rowsByModel data ∧ rows[index]? = some row := by
  rw [numbered, List.mem_flatMap]
  constructor
  · rintro ⟨⟨name', rows⟩, entry, member⟩
    obtain ⟨⟨row', index'⟩, at_index, same⟩ := List.mem_map.mp member
    simp only [Prod.mk.injEq] at same
    obtain ⟨rfl, rfl, rfl⟩ := same
    exact ⟨rows, entry, List.mem_zipIdx_iff_getElem?.mp at_index⟩
  · rintro ⟨rows, entry, at_index⟩
    exact ⟨(name, rows), entry, List.mem_map.mpr ⟨(row, index), List.mem_zipIdx_iff_getElem?.mpr at_index, rfl⟩⟩

theorem numbered_name {name : String} {row : Row} {index : Nat} (member : (name, row, index) ∈ numbered data) :
    name = orElse row.model noModel ∧ (name ≠ noModel → name ∈ modelNames data) := by
  obtain ⟨rows, entry, at_index⟩ := (mem_numbered data).mp member
  obtain ⟨filtered, -⟩ := mem_groups entry
  have inside := List.mem_of_getElem? at_index
  rw [filtered] at inside
  refine ⟨(of_decide_eq_true (List.mem_filter.mp inside).2).symm, fun other => ?_⟩
  exact List.mem_filter.mpr ⟨List.mem_map_of_mem entry, decide_eq_true other⟩

def numberedIn (entry : String × List Row) : List (String × Nat) :=
  (entry.2.zipIdx.map fun (row, index) => (entry.1, row, index)).map fun peer => (peer.1, peer.2.2)

theorem numberedIn_eq (entry : String × List Row) :
    numberedIn entry = (entry.2.zipIdx.map Prod.snd).map fun index => (entry.1, index) := by
  rw [numberedIn, List.map_map, List.map_map]
  rfl

theorem numbers_nodup : ((numbered data).map fun peer => (peer.1, peer.2.2)).Nodup := by
  have split : (numbered data).map (fun peer => (peer.1, peer.2.2)) = (rowsByModel data).flatMap numberedIn := by
    rw [numbered, List.map_flatMap]
    rfl
  rw [split]
  refine List.nodup_flatMap.mpr ⟨fun entry _ => ?_, ?_⟩
  · rw [numberedIn_eq, List.zipIdx_map_snd]
    exact List.Nodup.map (fun _ _ same => (Prod.mk.inj same).2) List.nodup_range'
  · refine (List.pairwise_map.mp (groups_nodup _ (peerRows data))).imp fun {first second} different => ?_
    intro pair here there
    rw [numberedIn_eq] at here there
    obtain ⟨_, -, rfl⟩ := List.mem_map.mp here
    obtain ⟨_, -, same⟩ := List.mem_map.mp there
    exact different (Prod.mk.inj same).1.symm

theorem serverIds_nodup : (serverIds data).Nodup := by
  have ids : serverIds data =
      ((numbered data).map fun peer => (peer.1, peer.2.2)).map fun pair => serverId pair.1 pair.2 := by
    rw [List.map_map]
    rfl
  rw [ids]
  exact (numbers_nodup data).map fun _ _ same => Prod.ext (serverId_inj same).1 (serverId_inj same).2

/-! ### Drawing -/

def Draw.nodes : Draw → List VisNode
  | .node drawn => [drawn]
  | _ => []

def Draw.edgeList : Draw → List VisEdge
  | .edges drawn => drawn
  | _ => []

def Draw.boxes : Draw → List (String × Option String × List String)
  | .box modelName color nodes => [(modelName, color, nodes)]
  | _ => []

def Graph.plus (graph : Graph) (draws : List Draw) : Graph :=
  { nodes := graph.nodes ++ draws.flatMap Draw.nodes
    edges := graph.edges ++ draws.flatMap Draw.edgeList
    modelGroups := graph.modelGroups ++ draws.flatMap Draw.boxes }

theorem draw_fresh {vis : DataSet} (documented : vis.Documented) {graph : Graph} {call : Draw}
    (fresh : ((graph.nodes ++ call.nodes).map VisNode.id).Nodup) : graph.draw vis call = some (graph.plus [call]) := by
  cases call with
  | node node =>
    have absent : node.id ∉ graph.nodes.map VisNode.id := by
      intro held
      rw [List.map_append] at fresh
      exact (List.nodup_append.mp fresh).2.2 node.id held node.id List.mem_cons_self rfl
    rw [Graph.draw, documented.add_new _ _ absent]
    simp [Graph.plus, Draw.nodes, Draw.edgeList, Draw.boxes]
  | edges edges =>
    rw [Graph.draw, documented.addEdges]
    simp [Graph.plus, Draw.nodes, Draw.edgeList, Draw.boxes]
  | box modelName color nodes => simp [Graph.draw, Graph.plus, Draw.nodes, Draw.edgeList, Draw.boxes]

theorem plus_cons (graph : Graph) (call : Draw) (draws : List Draw) :
    (graph.plus [call]).plus draws = graph.plus (call :: draws) := by
  simp [Graph.plus]

theorem run_draw {vis : DataSet} (documented : vis.Documented) (graph : Graph) (draws : List Draw)
    (fresh : ((graph.nodes ++ draws.flatMap Draw.nodes).map VisNode.id).Nodup) :
    Systems.run (Graph.draw vis) graph draws = some (graph.plus draws) := by
  induction draws generalizing graph with
  | nil => simp [Systems.run, Graph.plus]
  | cons call draws ih =>
    rw [List.flatMap_cons, ← List.append_assoc] at fresh
    have here : ((graph.nodes ++ call.nodes).map VisNode.id).Nodup := by
      rw [List.map_append] at fresh
      exact (List.nodup_append.mp fresh).1
    have after : (graph.plus [call]).nodes = graph.nodes ++ call.nodes := by simp [Graph.plus]
    rw [← plus_cons]
    exact (run_cons (Graph.draw vis)).mpr ⟨_, draw_fresh documented here, ih _ (after ▸ fresh)⟩

/-- A model is named as one of the numbered peers is. -/
def Clash (data : Document) : Prop :=
  ∃ name ∈ modelNames data, ∃ id ∈ serverIds data, id ∈ [apiId "1" name, apiId "2" name, modelNodeId name]

def free (peer : String × Row × Nat) : Bool := decide (serverId peer.1 peer.2.2 ∉ fixedIds (modelNames data))

/-- The peers before the first whose name is taken. -/
def admitted : List (String × Row × Nat) := (numbered data).takeWhile (free data)

theorem admitted_sublist : (admitted data).Sublist (numbered data) := List.takeWhile_sublist _

theorem all_free_iff : (numbered data).all (free data) = true ↔ ¬ Clash data := by
  rw [List.all_eq_true]
  constructor
  · intro all clash
    obtain ⟨name, member, id, listed, same⟩ := clash
    obtain ⟨peer, numbered, rfl⟩ := List.mem_map.mp listed
    exact of_decide_eq_true (all peer numbered) (mem_fixedIds.mpr (Or.inr ⟨name, member, same⟩))
  · intro apart peer member
    refine decide_eq_true fun fixed => ?_
    rcases mem_fixedIds.mp fixed with bootstrap | ⟨name, listed, same⟩
    · exact serverId_not_bootstrap peer.1 peer.2.2 bootstrap
    · exact apart ⟨name, listed, serverId peer.1 peer.2.2, List.mem_map_of_mem member, same⟩

theorem admitted_all (apart : ¬ Clash data) : admitted data = numbered data :=
  List.takeWhile_eq_self_iff.mpr (List.all_eq_true.mp ((all_free_iff data).mpr apart))

variable (browser : Browser)

def graphOf (peers : List (String × Row × Nat)) : Graph :=
  ({} : Graph).plus (upperDraws data ++ peers.flatMap (peerDraws browser data))

theorem graphOf_nodes (peers : List (String × Row × Nat)) :
    (graphOf data browser peers).nodes =
      bootstrapNodes ++ (modelNames data).flatMap (fun name => [apiNode data "1" name, apiNode data "2" name]) ++
        (modelNames data).map modelNode ++
        peers.map fun peer => serverNode browser data peer.1 peer.2.1.server peer.2.2 := by
  have single (nodes : List VisNode) : (nodes.map Draw.node).flatMap Draw.nodes = nodes := by
    rw [List.flatMap_map]
    exact List.flatMap_singleton' nodes
  rw [graphOf, Graph.plus, List.nil_append, upperDraws]
  simp only [List.flatMap_append, single, List.flatMap_assoc, List.flatMap_map]
  simp [Draw.nodes, peerDraws, List.map_eq_flatMap]

theorem graphOf_edges (peers : List (String × Row × Nat)) :
    (graphOf data browser peers).edges =
      (modelNames data).flatMap apiEdges ++ (modelNames data).flatMap modelEdges ++
        peers.flatMap fun peer => serverEdges peer.1 peer.2.2 := by
  have none (nodes : List VisNode) : (nodes.map Draw.node).flatMap Draw.edgeList = [] := by
    simp [List.flatMap_map, Draw.edgeList]
  rw [graphOf, Graph.plus, List.nil_append, upperDraws]
  simp only [List.flatMap_append, none, List.flatMap_assoc, List.flatMap_map]
  simp [Draw.edgeList, peerDraws]

theorem graphOf_ids (peers : List (String × Row × Nat)) :
    (graphOf data browser peers).nodes.map VisNode.id =
      fixedIds (modelNames data) ++ peers.map fun peer => serverId peer.1 peer.2.2 := by
  rw [graphOf_nodes, fixedIds]
  simp only [List.map_append, List.map_flatMap, List.map_map]
  rfl

theorem admitted_ids_nodup : ((graphOf data browser (admitted data)).nodes.map VisNode.id).Nodup := by
  rw [graphOf_ids]
  refine List.nodup_append.mpr ⟨fixedIds_nodup (modelNames_nodup data), ?_, ?_⟩
  · exact (serverIds_nodup data).sublist ((admitted_sublist data).map _)
  · intro id fixed other listed same
    obtain ⟨peer, member, rfl⟩ := List.mem_map.mp listed
    have own : free data peer = true := List.mem_takeWhile_imp member
    exact of_decide_eq_true own (same ▸ fixed)

theorem runFar_draws {vis : DataSet} (documented : vis.Documented) :
    runFar (Graph.draw vis) {} (upperDraws data ++ (numbered data).flatMap (peerDraws browser data)) =
      (graphOf data browser (admitted data), (numbered data).all (free data)) := by
  have split : (numbered data).flatMap (peerDraws browser data) =
      (admitted data).flatMap (peerDraws browser data) ++
        ((numbered data).dropWhile (free data)).flatMap (peerDraws browser data) := by
    rw [← List.flatMap_append, admitted, List.takeWhile_append_dropWhile]
  have drawn := run_draw documented {} (upperDraws data ++ (admitted data).flatMap (peerDraws browser data))
    (admitted_ids_nodup data browser)
  rw [split, ← List.append_assoc, runFar_append drawn]
  cases rest : (numbered data).dropWhile (free data) with
  | nil =>
    rw [List.all_eq_true.mpr (List.dropWhile_eq_nil_iff.mp rest)]
    rfl
  | cons peer later =>
    have taken : free data peer = false := by
      have first := List.head?_dropWhile_not (free data) (numbered data)
      rw [rest] at first
      exact first
    have member : peer ∈ numbered data := (List.dropWhile_sublist _).subset (rest ▸ List.mem_cons_self)
    have cut : (numbered data).all (free data) = false := List.all_eq_false.mpr ⟨peer, member, by simp [taken]⟩
    rw [cut, List.flatMap_cons, peerDraws, List.cons_append]
    have fixed : serverId peer.1 peer.2.2 ∈ fixedIds (modelNames data) := by simpa [free] using taken
    have named : serverId peer.1 peer.2.2 ∈ (graphOf data browser (admitted data)).nodes.map VisNode.id := by
      rw [graphOf_ids]
      exact List.mem_append_left _ fixed
    refine runFar_refused ?_
    rw [Graph.draw, documented.add_held _ _ named]
    rfl

/-! ### Tiers -/

variable (existing : List VisNode)

def keepPlace (existing : List VisNode) (node : VisNode) : VisNode :=
  match positionIn existing node.id with
  | some position => { node with position := some position, fixed := true }
  | none => node

theorem lookup_savedPlaces {nodes : List VisNode} {node : VisNode} (member : node ∈ nodes) :
    (savedPlaces existing nodes).lookup node.id = positionIn existing node.id := by
  induction nodes with
  | nil => cases member
  | cons first rest ih =>
    have entry : savedPlaces existing (first :: rest) =
        ((positionIn existing first.id).map fun position => (first.id, position)).toList ++
          savedPlaces existing rest := by
      rw [savedPlaces, List.filterMap_cons]
      cases positionIn existing first.id <;> rfl
    rw [entry]
    by_cases same : node.id = first.id
    · cases here : positionIn existing first.id with
      | some position =>
        rw [same, here]
        exact List.lookup_cons_self
      | none =>
        -- nobody of that name has a place
        have none : ∀ place ∈ savedPlaces existing rest, place.1 ≠ node.id := by
          intro place listed named
          obtain ⟨other, -, saved⟩ := List.mem_filterMap.mp listed
          obtain ⟨position, at_, rfl⟩ := Option.map_eq_some_iff.mp saved
          rw [show other.id = node.id from named, same, here] at at_
          cases at_
        rw [same, here, ← same]
        exact List.lookup_eq_none_iff.mpr fun place listed => by simpa using (none place listed).symm
    · have later : node ∈ rest := (List.mem_cons.mp member).resolve_left fun eq => same (eq ▸ rfl)
      rw [← ih later]
      cases positionIn existing first.id with
      | some position =>
        change List.lookup node.id ((first.id, position) :: savedPlaces existing rest) = _
        rw [List.lookup_cons, beq_false_of_ne same]
      | none => rfl

def documentedView : Topology :=
  let graph := graphOf data browser (admitted data)
  if (numbered data).all (free data) then
    { graph with
      nodes := graph.nodes.map (keepPlace existing)
      whole := true, fitted := graph.nodes.all fun node => (positionIn existing node.id).isNone }
  else { graph with whole := false, fitted := false }

theorem updateNetworkView_eq {vis : DataSet} (documented : vis.Documented) :
    updateNetworkView browser data vis existing = documentedView data browser existing := by
  rw [updateNetworkView, runFar_draws data browser documented, documentedView]
  cases (numbered data).all (free data) with
  | false => rfl
  | true =>
    generalize graphOf data browser (admitted data) = graph
    have fitted : (savedPlaces existing graph.nodes).isEmpty =
        graph.nodes.all fun node => (positionIn existing node.id).isNone := by
      rw [Bool.eq_iff_iff, List.isEmpty_iff, savedPlaces, List.filterMap_eq_nil_iff, List.all_eq_true]
      simp
    have placed : (if (savedPlaces existing graph.nodes).isEmpty then graph.nodes
        else vis.update graph.nodes (savedPlaces existing graph.nodes)) = graph.nodes.map (keepPlace existing) := by
      split
      · rename_i nobody
        rw [fitted, List.all_eq_true] at nobody
        refine (List.map_id _).symm.trans (List.map_congr_left fun node member => ?_)
        rw [keepPlace, Option.isNone_iff_eq_none.mp (nobody node member)]
        rfl
      · rw [documented.update]
        · refine List.map_congr_left fun node member => ?_
          rw [VisNode.placed, lookup_savedPlaces existing member, keepPlace]
        · intro place listed
          obtain ⟨node, member, saved⟩ := List.mem_filterMap.mp listed
          obtain ⟨position, -, rfl⟩ := Option.map_eq_some_iff.mp saved
          exact List.mem_map_of_mem member
    dsimp only
    rw [if_pos rfl, if_pos rfl, placed, fitted]

theorem keepPlace_id (node : VisNode) : (keepPlace existing node).id = node.id := by
  unfold keepPlace
  split <;> rfl

theorem keepPlace_level (node : VisNode) : (keepPlace existing node).level = node.level := by
  unfold keepPlace
  split <;> rfl

theorem view_whole : (documentedView data browser existing).whole = true ↔ ¬ Clash data := by
  rw [← all_free_iff, documentedView]
  cases (numbered data).all (free data) <;> exact Iff.rfl

theorem view_edges :
    (documentedView data browser existing).edges = (graphOf data browser (admitted data)).edges := by
  rw [documentedView]
  cases (numbered data).all (free data) <;> rfl

theorem view_nodes :
    (documentedView data browser existing).nodes =
      if (numbered data).all (free data) then (graphOf data browser (admitted data)).nodes.map (keepPlace existing)
      else (graphOf data browser (admitted data)).nodes := by
  rw [documentedView]
  cases (numbered data).all (free data) <;> rfl

theorem topology_ids :
    (documentedView data browser existing).nodes.map VisNode.id =
      fixedIds (modelNames data) ++ (admitted data).map fun peer => serverId peer.1 peer.2.2 := by
  rw [← graphOf_ids data browser, view_nodes]
  split
  · rw [List.map_map]
    exact List.map_congr_left fun node _ => keepPlace_id existing node
  · rfl

theorem ends_numbered {front name prefixed digits : List Char} (short : front.length = 5) (fresh : '-' ∉ digits)
    (same : front ++ '-' :: name = prefixed ++ "-server".toList ++ '-' :: digits) :
    "server".toList ++ '-' :: digits <:+ name := by
  have whole : '-' :: name <:+ prefixed ++ "-server".toList ++ '-' :: digits := ⟨front, same⟩
  have tail : "server".toList ++ '-' :: digits <:+ prefixed ++ "-server".toList ++ '-' :: digits :=
    ⟨prefixed ++ ['-'], by simp⟩
  have sizes := congrArg List.length same
  rcases Nat.lt_or_ge name.length ("server".toList ++ '-' :: digits).length with less | enough
  · exfalso
    obtain ⟨before, split⟩ := List.suffix_of_suffix_length_le whole tail less
    have dashes := congrArg (List.count '-') split
    have none : '-' ∉ name := by
      rw [← List.count_eq_zero]
      have last : digits.count '-' = 0 := List.count_eq_zero.mpr fresh
      simp [List.count_append, last] at dashes
      omega
    obtain ⟨-, rfl⟩ := Text.last_cut_unique none fresh split
    simp at sizes
    omega
  · exact List.suffix_of_suffix_length_le tail ((List.suffix_cons '-' name).trans whole) enough

theorem plain_not_clash {data : Document} (plain : ∀ name ∈ modelNames data, ∀ index : Nat,
      ¬ "server".toList ++ '-' :: (Nat.repr index).toList <:+ name.toList) : ¬ Clash data := by
  rintro ⟨name, member, id, listed, same⟩
  obtain ⟨⟨group, row, index⟩, -, rfl⟩ := List.mem_map.mp listed
  have fresh := Text.not_digit_not_mem_repr (c := '-') (by decide) index
  have spelled := toList_serverId group index
  have ends : ∃ front : List Char, front.length = 5 ∧ front ++ '-' :: name.toList = (serverId group index).toList := by
    simp only [List.mem_cons, List.not_mem_nil, or_false] at same
    rcases same with api | api | model
    · exact ⟨"api-1".toList, by decide, by rw [api, apiId]; simp [String.toList_append]⟩
    · exact ⟨"api-2".toList, by decide, by rw [api, apiId]; simp [String.toList_append]⟩
    · exact ⟨"model".toList, by decide, by rw [model, modelNodeId]; simp [String.toList_append]⟩
  obtain ⟨front, short, written⟩ := ends
  exact plain name member index (ends_numbered short fresh (written.trans spelled))

def Stands (graph : Topology) (id : String) (level : Int) : Prop :=
  ∃ node ∈ graph.nodes, node.id = id ∧ node.level = level

section
variable {data browser existing} {name : String}

theorem stands_of_mem {node : VisNode} (member : node ∈ (graphOf data browser (admitted data)).nodes) :
    Stands (documentedView data browser existing) node.id node.level := by
  unfold Stands
  rw [view_nodes]
  split
  · exact ⟨_, List.mem_map_of_mem member, keepPlace_id existing node, keepPlace_level existing node⟩
  · exact ⟨node, member, rfl, rfl⟩

theorem stands_bootstrap {id : String} (member : id ∈ bootstrapIds) :
    Stands (documentedView data browser existing) id (-1) := by
  obtain ⟨node, here, rfl, level⟩ : ∃ node ∈ bootstrapNodes, node.id = id ∧ node.level = -1 := by
    rcases List.mem_cons.mp member with rfl | second
    · exact ⟨_, List.mem_cons_self, rfl, rfl⟩
    · obtain rfl := List.mem_singleton.mp second
      exact ⟨_, List.mem_cons_of_mem _ List.mem_cons_self, rfl, rfl⟩
  have listed : node ∈ (graphOf data browser (admitted data)).nodes := by
    rw [graphOf_nodes]
    exact List.mem_append_left _ (List.mem_append_left _ (List.mem_append_left _ here))
  exact level ▸ stands_of_mem listed

theorem stands_api (member : name ∈ modelNames data) {k : String} (either : k = "1" ∨ k = "2") :
    Stands (documentedView data browser existing) (apiId k name) 0 := by
  have listed : apiNode data k name ∈ (graphOf data browser (admitted data)).nodes := by
    rw [graphOf_nodes]
    refine List.mem_append_left _ (List.mem_append_left _ (List.mem_append_right _ ?_))
    refine List.mem_flatMap.mpr ⟨name, member, ?_⟩
    rcases either with rfl | rfl
    · exact List.mem_cons_self
    · exact List.mem_cons_of_mem _ List.mem_cons_self
  exact stands_of_mem listed

theorem stands_model (member : name ∈ modelNames data) :
    Stands (documentedView data browser existing) (modelNodeId name) 1 := by
  have listed : modelNode name ∈ (graphOf data browser (admitted data)).nodes := by
    rw [graphOf_nodes]
    exact List.mem_append_left _ (List.mem_append_right _ (List.mem_map_of_mem member))
  exact stands_of_mem listed

theorem stands_server {peer : String × Row × Nat} (member : peer ∈ admitted data) :
    Stands (documentedView data browser existing) (serverId peer.1 peer.2.2) 2 := by
  have listed :
      serverNode browser data peer.1 peer.2.1.server peer.2.2 ∈ (graphOf data browser (admitted data)).nodes := by
    rw [graphOf_nodes]
    exact List.mem_append_right _ (List.mem_map_of_mem member)
  exact stands_of_mem listed

theorem edge_descends {edge : VisEdge} (member : edge ∈ (documentedView data browser existing).edges) :
    ∃ upper lower, Stands (documentedView data browser existing) edge.source upper ∧
      Stands (documentedView data browser existing) edge.target lower ∧ upper < lower := by
  have first : "bootstrap-1" ∈ bootstrapIds := List.mem_cons_self
  have second : "bootstrap-2" ∈ bootstrapIds := List.mem_cons_of_mem _ List.mem_cons_self
  rw [view_edges, graphOf_edges] at member
  rcases List.mem_append.mp member with upper | servers
  · rcases List.mem_append.mp upper with api | model
    · obtain ⟨name, listed, member⟩ := List.mem_flatMap.mp api
      simp only [apiEdges, List.mem_cons, List.not_mem_nil, or_false] at member
      rcases member with rfl | rfl | rfl | rfl
      · exact ⟨-1, 0, stands_bootstrap first, stands_api listed (Or.inl rfl), by decide⟩
      · exact ⟨-1, 0, stands_bootstrap first, stands_api listed (Or.inr rfl), by decide⟩
      · exact ⟨-1, 0, stands_bootstrap second, stands_api listed (Or.inl rfl), by decide⟩
      · exact ⟨-1, 0, stands_bootstrap second, stands_api listed (Or.inr rfl), by decide⟩
    · obtain ⟨name, listed, member⟩ := List.mem_flatMap.mp model
      simp only [modelEdges, List.mem_cons, List.not_mem_nil, or_false] at member
      rcases member with rfl | rfl
      · exact ⟨0, 1, stands_api listed (Or.inl rfl), stands_model listed, by decide⟩
      · exact ⟨0, 1, stands_api listed (Or.inr rfl), stands_model listed, by decide⟩
  · obtain ⟨peer, listed, member⟩ := List.mem_flatMap.mp servers
    have own := (numbered_name data ((admitted_sublist data).subset listed)).2
    rcases List.mem_append.mp member with model | member
    · split at model
      · rename_i other
        obtain rfl := List.mem_singleton.mp model
        exact ⟨1, 2, stands_model (own other), stands_server listed, by decide⟩
      · cases model
    · simp only [List.mem_cons, List.not_mem_nil, or_false] at member
      rcases member with rfl | rfl
      · exact ⟨-1, 2, stands_bootstrap first, stands_server listed, by decide⟩
      · exact ⟨-1, 2, stands_bootstrap second, stands_server listed, by decide⟩

end

/-! ### Places over a run -/

def refreshed (existing : List VisNode) (data : Document) : List VisNode :=
  (documentedView data browser existing).nodes

theorem graphOf_unplaced (peers : List (String × Row × Nat)) :
    ∀ node ∈ (graphOf data browser peers).nodes, node.position = none := by
  intro node member
  rw [graphOf_nodes] at member
  simp only [List.mem_append, List.mem_flatMap, List.mem_map, List.mem_cons, List.not_mem_nil, or_false,
    bootstrapNodes] at member
  rcases member with (((rfl | rfl) | ⟨name, -, rfl | rfl⟩) | ⟨name, -, rfl⟩) | ⟨peer, -, rfl⟩ <;> rfl

theorem keepPlace_position {node : VisNode} (unplaced : node.position = none) :
    (keepPlace existing node).position = positionIn existing node.id := by
  unfold keepPlace
  split
  · rename_i position saved
    exact saved.symm
  · rename_i unsaved
    rw [unplaced, unsaved]

theorem refresh_position {node : VisNode} (member : node ∈ refreshed browser existing data) :
    node.position = if (numbered data).all (free data) then positionIn existing node.id else none := by
  rw [refreshed, view_nodes] at member
  split at member
  · rename_i whole
    obtain ⟨fresh, listed, rfl⟩ := List.mem_map.mp member
    rw [if_pos whole, keepPlace_id]
    exact keepPlace_position existing (graphOf_unplaced data browser _ fresh listed)
  · rename_i cut
    rw [if_neg cut]
    exact graphOf_unplaced data browser _ node member

theorem refresh_place {node : VisNode} (member : node ∈ refreshed browser existing data) {place : Float × Float} :
    node.position = some place ↔ ¬ Clash data ∧ positionIn existing node.id = some place := by
  rw [refresh_position data browser existing member, ← all_free_iff]
  cases (numbered data).all (free data) <;> simp

def topologyIds : List String := fixedIds (modelNames data) ++ serverIds data

theorem refresh_named {node : VisNode} (member : node ∈ refreshed browser existing data) :
    node.id ∈ topologyIds data := by
  have listed := List.mem_map_of_mem (f := VisNode.id) member
  rw [refreshed, topology_ids] at listed
  exact (((admitted_sublist data).map _).append_left _).subset listed

theorem positionIn_refresh {id : String} {place : Float × Float} :
    positionIn (refreshed browser existing data) id = some place ↔
      (¬ Clash data ∧ id ∈ topologyIds data) ∧ positionIn existing id = some place := by
  rw [positionIn]
  cases found : (refreshed browser existing data).find? fun node => node.id == id with
  | some node =>
    have same : node.id = id := by simpa using List.find?_some found
    have member := List.mem_of_find?_eq_some found
    have named := same ▸ refresh_named data browser existing member
    refine Iff.trans (refresh_place data browser existing member) ?_
    rw [same]
    exact ⟨fun both => ⟨⟨both.1, named⟩, both.2⟩, fun both => ⟨both.1.1, both.2⟩⟩
  | none =>
    refine iff_of_false (by simp) ?_
    intro both
    have listed : id ∈ (refreshed browser existing data).map VisNode.id := by
      rw [refreshed, topology_ids, admitted_all data both.1.1]
      exact both.1.2
    obtain ⟨node, member, same⟩ := List.mem_map.mp listed
    exact List.find?_eq_none.mp found node member (beq_iff_eq.mpr same)

theorem positionIn_run (start : List VisNode) (docs : List Document) {id : String} {place : Float × Float} :
    positionIn (docs.foldl (refreshed browser) start) id = some place ↔
      (∀ data ∈ docs, ¬ Clash data ∧ id ∈ topologyIds data) ∧ positionIn start id = some place := by
  induction docs generalizing start with
  | nil => simp
  | cons data docs ih =>
    rw [List.foldl_cons, ih, positionIn_refresh, List.forall_mem_cons]
    exact ⟨fun both => ⟨⟨both.2.1, both.1⟩, both.2.2⟩, fun both => ⟨both.1.2, both.1.1, both.2⟩⟩

end

def refresh (browser : Browser) (vis : DataSet) (existing : List VisNode) (data : Document) : List VisNode :=
  (updateNetworkView browser data vis existing).nodes

/-- After any run of refreshes the graph of the last document: names are distinct and edges go down the tiers;
peers hang under their own model and from both bootstraps; they are all drawn unless a model is named as one of
them is; and a node stands where it was put as long as every document since was drawn whole and had its name. -/
theorem topology_graph (browser : Browser) {vis : DataSet} (documented : vis.Documented) (start : List VisNode)
    (docs : List Document) (data : Document) :
    let graph := updateNetworkView browser data vis (docs.foldl (refresh browser vis) start)
    (graph.nodes.map VisNode.id).Nodup ∧
      (∀ edge ∈ graph.edges, ∃ upper lower, Stands graph edge.source upper ∧ Stands graph edge.target lower ∧
        upper < lower) ∧
      (∀ name row index, (name, row, index) ∈ admitted data →
        name = orElse row.model noModel ∧ Stands graph (serverId name index) 2 ∧
          (∀ edge ∈ serverEdges name index, edge ∈ graph.edges) ∧
          (name ≠ noModel → ∀ edge ∈ apiEdges name ++ modelEdges name, edge ∈ graph.edges)) ∧
      (graph.whole = true ↔ ¬ Clash data) ∧
      (¬ Clash data → ((admitted data).map fun peer => peer.2.1).Perm (peerRows data)) ∧
      ∀ node ∈ graph.nodes, ∀ place, node.position = some place ↔
        (∀ earlier ∈ docs ++ [data], ¬ Clash earlier ∧ node.id ∈ topologyIds earlier) ∧
          positionIn start node.id = some place := by
  have drawn : refresh browser vis = refreshed browser := by
    funext existing data
    rw [refresh, updateNetworkView_eq data browser existing documented, refreshed]
  rw [drawn, updateNetworkView_eq data browser _ documented]
  intro graph
  refine ⟨?_, fun edge member => edge_descends member, ?_, view_whole data browser _, ?_, ?_⟩
  · rw [topology_ids, ← graphOf_ids data browser]
    exact admitted_ids_nodup data browser
  · intro name row index member
    obtain ⟨own, listed⟩ := numbered_name data ((admitted_sublist data).subset member)
    refine ⟨own, stands_server member, ?_, ?_⟩
    · intro edge drawn
      rw [view_edges, graphOf_edges]
      exact List.mem_append_right _ (List.mem_flatMap.mpr ⟨(name, row, index), member, drawn⟩)
    · intro other edge drawn
      rw [view_edges, graphOf_edges]
      refine List.mem_append_left _ ?_
      rcases List.mem_append.mp drawn with api | model
      · exact List.mem_append_left _ (List.mem_flatMap.mpr ⟨name, listed other, api⟩)
      · exact List.mem_append_right _ (List.mem_flatMap.mpr ⟨name, listed other, model⟩)
  · intro apart
    rw [admitted_all data apart]
    exact numbered_perm data
  · intro node member place
    have named := refresh_named data browser _ member
    refine Iff.trans (refresh_place data browser _ member) ?_
    rw [positionIn_run, List.forall_mem_append, List.forall_mem_singleton]
    exact ⟨fun both => ⟨⟨both.2.1, both.1, named⟩, both.2.2⟩, fun both => ⟨both.1.2.1, both.1.1, both.2⟩⟩

theorem topology_graph_kept_place :
    let browser : Browser :=
      { number := Int.repr, decimal := fun _ => "", toFixed := fun _ _ => "", inherited := fun _ => none }
    let peer : Peer :=
      { peerId := "QmA", publicName := none, version := none, state := "online", shardLoading := false
        model := some "llama", span := none, throughput := none, usingRelay := none, peerIpInfo := {} }
    let data : Document := { peers := some [peer], modelReports := [] }
    let start : List VisNode :=
      [{ id := "llama-server-0", label := "", shape := "dot", size := 20, level := 2, position := some (1, 2) }]
    let graph := updateNetworkView browser data .listed ([data].foldl (refresh browser .listed) start)
    graph.whole = true ∧ ∃ node ∈ graph.nodes, node.id = "llama-server-0" ∧ node.position = some (1, 2) := by
  intro browser peer data start graph
  have apart : ¬ Clash data := by
    unfold Clash
    decide +kernel
  have named : "llama-server-0" ∈ topologyIds data := by decide +kernel
  obtain ⟨-, -, servers, whole, -, places⟩ := topology_graph browser DataSet.listed_documented start [data] data
  have seat : ("llama", ofPeer peer, 0) ∈ admitted data := by
    rw [admitted_all data apart]
    exact List.mem_singleton_self _
  obtain ⟨-, ⟨node, drawn, same, -⟩, -⟩ := servers _ _ _ seat
  refine ⟨whole.mpr apart, node, drawn, same, (places node drawn (1, 2)).mpr ⟨?_, ?_⟩⟩
  · intro earlier member
    have one : earlier = data := by simpa using member
    exact ⟨one ▸ apart, one ▸ same ▸ named⟩
  · rw [same]
    rfl

end KwaaiNetMap.Page
