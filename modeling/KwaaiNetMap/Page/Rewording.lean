import KwaaiNetMap.Page.Popup
import Mathlib.Data.List.Forall2

/-!
A node with other texts keeps its status, its connection and its throughput, and a document whose rows have
other texts has the same sites, each with the same nodes in other words (`collectSites_reworded`).
-/

namespace KwaaiNetMap.Page

/-! ### Other texts in the same places -/

structure Texts where
  publicName : Option String
  version : Option String
  model : String

def ServerInfo.withTexts (info : ServerInfo) (t : Texts) : ServerInfo :=
  { info with publicName := t.publicName, version := t.version }

def Server.withTexts (server : Server) (t : Texts) : Server :=
  { server with span := server.span.map fun span =>
      { span with serverInfo := span.serverInfo.map fun info => info.withTexts t } }

def Node.withTexts (node : Node) (t : Texts) : Node :=
  { server := node.server.withTexts t, report := { name := t.model } }

def Node.Reworded (node other : Node) : Prop := ∃ t, other = node.withTexts t

def Site.Reworded (site other : Site) : Prop :=
  other.label = site.label ∧ List.Forall₂ Node.Reworded site.nodes other.nodes

section
variable {browser : Browser} (server : Server) (t : Texts)

theorem info_withTexts : (server.withTexts t).info = server.info.map fun info => info.withTexts t := by
  unfold Server.info Server.withTexts
  cases server.span <;> rfl

theorem serverStatus_withTexts : serverStatus browser (server.withTexts t) = serverStatus browser server := by
  unfold serverStatus
  rw [info_withTexts, Option.bind_map]
  rfl

theorem usingRelay_withTexts : (server.withTexts t).usingRelay = server.usingRelay := by
  unfold Server.usingRelay
  rw [info_withTexts, Option.bind_map]
  rfl

theorem getConnectionType_withTexts :
    getConnectionType browser (server.withTexts t) = getConnectionType browser server := by
  unfold getConnectionType
  rw [usingRelay_withTexts, info_withTexts, Option.isSome_map]
  rfl

theorem throughput_withTexts : (server.withTexts t).throughput = server.throughput := by
  unfold Server.throughput
  rw [info_withTexts]
  cases server.info <;> rfl

def Node.texts (node : Node) : Texts :=
  { publicName := node.server.info.bind ServerInfo.publicName
    version := node.server.info.bind ServerInfo.version
    model := node.report.name }

theorem withTexts_model (node : Node) (model : String) :
    node.withTexts { node.texts with model } = { node with report := { name := model } } := by
  obtain ⟨⟨state, peerIpInfo, span⟩, report⟩ := node
  cases span with
  | none => rfl
  | some span =>
    obtain ⟨start, stop, info⟩ := span
    cases info <;> rfl

theorem Node.reworded_refl (node : Node) : node.Reworded node := ⟨node.texts, (withTexts_model node _).symm⟩

end

/-! ### Rows and documents -/

def Row.Reworded (row other : Row) : Prop :=
  ∃ publicName version, other.server = row.server.withTexts { publicName, version, model := "" }

def Document.Reworded (data other : Document) : Prop :=
  List.Forall₂ Row.Reworded (peerRows data) (peerRows other)

theorem ofPeer_reworded (p : Peer) (publicName version model : Option String) :
    (ofPeer p).Reworded (ofPeer { p with publicName, version, model }) :=
  ⟨publicName, version, rfl⟩

theorem Row.Reworded.node {row other : Row} (reworded : row.Reworded other) : row.node.Reworded other.node := by
  obtain ⟨publicName, version, same⟩ := reworded
  refine ⟨{ publicName, version, model := orElse other.model noModel }, ?_⟩
  unfold Row.node
  rw [same]
  rfl

theorem Row.Reworded.location {row other : Row} (reworded : row.Reworded other) :
    other.server.peerIpInfo = row.server.peerIpInfo := by
  obtain ⟨publicName, version, same⟩ := reworded
  rw [same]
  rfl

structure Sites.Reworded (sites other : Sites) : Prop where
  located : List.Forall₂ (fun a b => b.1 = a.1 ∧ a.2.Reworded b.2) sites.located other.located
  unknown : sites.unknown.Reworded other.unknown

theorem Site.Reworded.push {site other : Site} (reworded : site.Reworded other) {node node' : Node}
    (also : node.Reworded node') :
    Site.Reworded { site with nodes := site.nodes ++ [node] } { other with nodes := other.nodes ++ [node'] } :=
  ⟨reworded.1, List.rel_append reworded.2 (.cons also .nil)⟩

theorem pushNode_reworded {sites others : List (String × Site)}
    (pairs : List.Forall₂ (fun a b => b.1 = a.1 ∧ a.2.Reworded b.2) sites others) (key label : String)
    {node node' : Node} (also : node.Reworded node') :
    List.Forall₂ (fun a b => b.1 = a.1 ∧ a.2.Reworded b.2) (pushNode key label node sites)
      (pushNode key label node' others) := by
  induction pairs with
  | nil => exact .cons ⟨rfl, rfl, .cons also .nil⟩ .nil
  | cons first rest ih =>
    obtain ⟨sameKey, reworded⟩ := first
    rw [pushNode, pushNode, sameKey]
    split
    · exact .cons ⟨rfl, reworded.push also⟩ rest
    · exact .cons ⟨rfl, reworded⟩ ih

theorem placeRow_reworded {browser : Browser} {sites others : Sites} (reworded : sites.Reworded others)
    {row other : Row} (also : row.Reworded other) :
    (placeRow browser sites row).Reworded (placeRow browser others other) := by
  unfold placeRow
  rw [also.location]
  split
  · dsimp only
    split
    · exact ⟨pushNode_reworded reworded.located _ _ also.node, reworded.unknown⟩
    · exact ⟨reworded.located, reworded.unknown.push also.node⟩
  · exact ⟨reworded.located, reworded.unknown.push also.node⟩

theorem collectSites_reworded (browser : Browser) {data other : Document} (reworded : data.Reworded other) :
    List.Forall₂ Site.Reworded (collectSites browser data).all (collectSites browser other).all := by
  have run {rows others : List Row} (pairs : List.Forall₂ Row.Reworded rows others) {s t : Sites}
      (start : s.Reworded t) : (rows.foldl (placeRow browser) s).Reworded (others.foldl (placeRow browser) t) := by
    induction pairs generalizing s t with
    | nil => exact start
    | cons first _ ih => exact ih (placeRow_reworded start first)
  have whole : (collectSites browser data).Reworded (collectSites browser other) :=
    run reworded ⟨.nil, rfl, .nil⟩
  unfold Sites.all
  refine List.rel_append ?_ (.cons whole.unknown .nil)
  rw [List.forall₂_map_left_iff, List.forall₂_map_right_iff]
  exact whole.located.imp fun _ _ pair => pair.2

end KwaaiNetMap.Page
