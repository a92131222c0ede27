import KwaaiNetMap.Collections.Grouping
import KwaaiNetMap.Page.Popup

/-!
The map draws a circle for each coordinate of the document and a chip for the nodes without one. Nobody is left
out and nobody is drawn twice (`map_shows_all`), and a circle takes the colour of its most alarming node, an
unannounced one aside.
-/

namespace KwaaiNetMap.Page
open Collections

def statusColors : List (String × String) := [
  ("online", "#2e8b57"), ("joining", "#e8891d"), ("unreachable", "#d0342c"), ("unannounced", "#c0392b"),
  ("offline", "#8a8a8a")]

def offlineColor : String := "#8a8a8a"

def statusPriority : List String := ["unreachable", "joining", "online", "offline"]

def siteColor (site : Site) : String :=
  let states := site.nodes.map fun node => node.server.state
  let worst := statusPriority.find? fun state => states.contains state
  (worst.bind fun state => statusColors.lookup state).getD offlineColor

def leafColor (browser : Browser) (node : Node) : String :=
  (property browser statusColors node.server.state).getD offlineColor

structure Circle where
  key : String
  site : Site
  color : String
  title : String
  /-- Absent for a node on its own. -/
  count : Option Nat

structure Leaf where
  node : Node
  site : Site
  color : String
  title : String

def Leaf.popup (leaf : Leaf) : Site := { label := leaf.site.label, nodes := [leaf.node] }

structure Drawing where
  circles : List Circle
  /-- The nodes of the expanded site, fanned out. -/
  leaves : List Leaf
  /-- The text of the chip, where it is shown, and the nodes behind it. -/
  chip : Option String
  unlocated : Site

def circleOf (browser : Browser) (key : String) (site : Site) : Circle :=
  let n := site.nodes.length
  { key, site
    color := siteColor site
    title := site.label ++ ": " ++ browser.number n ++ " node" ++ (if n = 1 then "" else "s")
    count := if n > 1 then some n else none }

def leafOf (browser : Browser) (site : Site) (node : Node) : Leaf :=
  { node, site, color := leafColor browser node, title := (nameAndVersion node.server).name }

def updateMapView (browser : Browser) (expanded : Option String) (data : Document) : Drawing :=
  let sites := collectSites browser data
  let open_ := sites.located.find? fun site => some site.1 == expanded
  { circles := sites.located.map fun site => circleOf browser site.1 site.2
    leaves := (open_.map fun site => site.2.nodes.map (leafOf browser site.2)).getD []
    chip :=
      if sites.unknown.nodes.length > 0 then
        some ("Location unknown: " ++ browser.number sites.unknown.nodes.length)
      else none
    unlocated := sites.unknown }

/-! ### Where a row goes -/

section
variable (browser : Browser)

def Row.place (row : Row) : Option Location :=
  (row.server.peerIpInfo.map PeerIpInfo.location).filter fun location => location.status = "success"

def placeKey (location : Location) : String :=
  coordinate browser location.lat ++ "," ++ coordinate browser location.lon

def placeLabel (location : Location) : String := location.city ++ ", " ++ location.country

def rowKey (row : Row) : String := (row.place.map (placeKey browser)).getD ""

def Row.located (row : Row) : Bool := row.place.isSome

def siteUnder (entry : String × List Row) : String × Site :=
  (entry.1, { label := ((entry.2.head?.bind Row.place).map placeLabel).getD "", nodes := entry.2.map Row.node })

theorem placeRow_eq (sites : Sites) (row : Row) :
    placeRow browser sites row =
      match row.place with
      | some location =>
        { sites with located := pushNode (placeKey browser location) (placeLabel location) row.node sites.located }
      | none => { sites with unknown := { sites.unknown with nodes := sites.unknown.nodes ++ [row.node] } } := by
  unfold placeRow Row.place
  cases row.server.peerIpInfo.map PeerIpInfo.location with
  | none => rfl
  | some location =>
    by_cases success : location.status = "success"
    · simp [Option.filter_some, success, placeKey, placeLabel]
    · simp [Option.filter_some, success]

theorem pushNode_groups {row : Row} {location : Location} (here : row.place = some location) (key : String)
    {all : List (String × List Row)} (filled : ∀ entry ∈ all, entry.2 ≠ []) :
    pushNode key (placeLabel location) row.node (all.map siteUnder) = (groupUnder key row all).map siteUnder := by
  induction all with
  | nil => simp [pushNode, groupUnder, siteUnder, here]
  | cons entry rest ih =>
    obtain ⟨k, group⟩ := entry
    have some_row : group ≠ [] := filled (k, group) List.mem_cons_self
    have later := ih fun entry member => filled entry (List.mem_cons_of_mem _ member)
    by_cases same : k = key
    · obtain ⟨first, others, rfl⟩ := List.exists_cons_of_ne_nil some_row
      simp [pushNode, groupUnder, siteUnder, same]
    · rw [groupUnder, if_neg same, List.map_cons, List.map_cons, ← later]
      simp [pushNode, siteUnder, same]

theorem collectSites_eq (data : Document) :
    (collectSites browser data).located =
        (groups (rowKey browser) ((peerRows data).filter Row.located)).map siteUnder ∧
      (collectSites browser data).unknown.nodes = ((peerRows data).filter fun row => !row.located).map Row.node := by
  unfold collectSites
  generalize peerRows data = rows
  induction rows using List.reverseRecOn with
  | nil => exact ⟨rfl, rfl⟩
  | append_singleton rows row ih =>
    rw [List.foldl_append, List.foldl_cons, List.foldl_nil, placeRow_eq, List.filter_append, List.filter_append]
    cases place : row.place with
    | none =>
      have unlocated : row.located = false := by simp [Row.located, place]
      simp [unlocated, ih.1, ih.2]
    | some location =>
      have located : row.located = true := by simp [Row.located, place]
      have key : placeKey browser location = rowKey browser row := by simp [rowKey, place]
      have step : groups (rowKey browser) (rows.filter Row.located ++ [row]) =
          groupUnder (rowKey browser row) row (groups (rowKey browser) (rows.filter Row.located)) := by
        rw [groups, List.foldl_append]
        rfl
      refine ⟨?_, ?_⟩
      · simp only [located, List.filter_cons_of_pos, List.filter_nil]
        rw [ih.1, key, pushNode_groups place _ (fun _ => groups_filled), step]
      · simp [located, ih.2]

/-! ### What is drawn -/

theorem siteColor_eq (site : Site) :
    siteColor site =
      let states := site.nodes.map fun node => node.server.state
      if "unreachable" ∈ states then "#d0342c"
      else if "joining" ∈ states then "#e8891d"
      else if "online" ∈ states then "#2e8b57"
      else offlineColor := by
  unfold siteColor statusPriority
  dsimp only
  generalize site.nodes.map (fun node => node.server.state) = states
  have has (state : String) : states.contains state = decide (state ∈ states) := by simp
  simp only [List.find?_cons, List.find?_nil, has]
  by_cases unreachable : "unreachable" ∈ states
  · rw [decide_eq_true unreachable, if_pos unreachable]
    rfl
  rw [decide_eq_false unreachable, if_neg unreachable]
  by_cases joining : "joining" ∈ states
  · rw [decide_eq_true joining, if_pos joining]
    rfl
  rw [decide_eq_false joining, if_neg joining]
  by_cases online : "online" ∈ states
  · rw [decide_eq_true online, if_pos online]
    rfl
  rw [decide_eq_false online, if_neg online]
  by_cases offline : "offline" ∈ states
  · rw [decide_eq_true offline]
    rfl
  · rw [decide_eq_false offline]
    rfl

/-- A node alone gives its circle the colour of its leaf, unless it is unannounced. -/
theorem siteColor_alone {site : Site} {node : Node} (alone : site.nodes = [node])
    (known : node.server.state ∈ statusColors.map Prod.fst) :
    siteColor site = leafColor browser node ↔ node.server.state ≠ "unannounced" := by
  rw [siteColor_eq, alone, leafColor]
  dsimp only
  rw [List.map_singleton]
  generalize node.server.state = state at known ⊢
  have leaf (color : String) (listed : statusColors.lookup state = some color) :
      (property browser statusColors state).getD offlineColor = color := by
    rw [property, listed]
    rfl
  have states : state = "online" ∨ state = "joining" ∨ state = "unreachable" ∨ state = "unannounced" ∨
      state = "offline" := by simpa [statusColors] using known
  rcases states with rfl | rfl | rfl | rfl | rfl
  · rw [leaf "#2e8b57" (by decide)]
    decide
  · rw [leaf "#e8891d" (by decide)]
    decide
  · rw [leaf "#d0342c" (by decide)]
    decide
  · rw [leaf "#c0392b" (by decide)]
    decide
  · rw [leaf "#8a8a8a" (by decide)]
    decide

def rowsAt (data : Document) (key : String) : List Row :=
  (peerRows data).filter fun row => row.located && (rowKey browser row == key)

theorem groups_at (data : Document) {entry : String × List Row}
    (member : entry ∈ groups (rowKey browser) ((peerRows data).filter Row.located)) :
    entry.2 = rowsAt browser data entry.1 ∧ entry.2 ≠ [] := by
  refine ⟨?_, groups_filled member⟩
  rw [(mem_groups member).1, rowsAt, List.filter_filter]
  refine List.filter_congr fun row _ => ?_
  rw [Bool.and_comm]
  rfl

theorem located_nodes (data : Document) :
    (collectSites browser data).located.flatMap (fun site => site.2.nodes) =
      ((groups (rowKey browser) ((peerRows data).filter Row.located)).flatMap Prod.snd).map Row.node := by
  rw [(collectSites_eq browser data).1, List.flatMap_map, List.map_flatMap]
  rfl

theorem leaves_eq (expanded : Option String) (data : Document) :
    (updateMapView browser expanded data).leaves.map Leaf.node =
      (expanded.map fun key => (rowsAt browser data key).map Row.node).getD [] := by
  have located := (collectSites_eq browser data).1
  have drawn : (updateMapView browser expanded data).leaves.map Leaf.node =
      (((collectSites browser data).located.find? fun site => some site.1 == expanded).map
        fun site => site.2.nodes).getD [] := by
    unfold updateMapView
    dsimp only
    cases (collectSites browser data).located.find? fun site => some site.1 == expanded with
    | none => rfl
    | some site => exact List.map_map.trans (List.map_id _)
  rw [drawn]
  cases expanded with
  | none =>
    rw [List.find?_eq_none.mpr fun site _ => by simp]
    rfl
  | some key =>
    cases found : (collectSites browser data).located.find? fun site => some site.1 == some key with
    | some site =>
      have same : site.1 = key := by simpa using List.find?_some found
      have member := List.mem_of_find?_eq_some found
      rw [located] at member
      obtain ⟨entry, grouped, rfl⟩ := List.mem_map.mp member
      rw [← same, show (siteUnder entry).1 = entry.1 from rfl]
      exact congrArg (List.map Row.node) (groups_at browser data grouped).1
    | none =>
      -- nobody stands at a coordinate without a circle
      have empty : rowsAt browser data key = [] := by
        refine List.eq_nil_iff_forall_not_mem.mpr fun row member => ?_
        obtain ⟨listed, both⟩ := List.mem_filter.mp member
        obtain ⟨here, at_key⟩ := Bool.and_eq_true_iff.mp both
        have seen :
            rowKey browser row ∈ (groups (rowKey browser) ((peerRows data).filter Row.located)).map Prod.fst := by
          rw [groups_keys, mem_firstSeen]
          exact List.mem_map_of_mem (List.mem_filter.mpr ⟨listed, here⟩)
        obtain ⟨entry, grouped, carries⟩ := List.mem_map.mp seen
        have circle : siteUnder entry ∈ (collectSites browser data).located := located ▸ List.mem_map_of_mem grouped
        have apart := List.find?_eq_none.mp found _ circle
        rw [show (siteUnder entry).1 = entry.1 from rfl, carries] at apart
        exact apart (by simpa using at_key)
      rw [Option.map_some, empty]
      rfl

theorem drawn_perm (expanded : Option String) (data : Document) :
    ((updateMapView browser expanded data).circles.flatMap (fun circle => circle.site.nodes) ++
      (collectSites browser data).unknown.nodes).Perm ((peerRows data).map Row.node) := by
  have nodes : (updateMapView browser expanded data).circles.flatMap (fun circle => circle.site.nodes) =
      (collectSites browser data).located.flatMap fun site => site.2.nodes := List.flatMap_map _ _ _
  rw [nodes, located_nodes, (collectSites_eq browser data).2, ← List.map_append]
  refine List.Perm.map _ (((groups_perm (rowKey browser) _).append_right _).trans ?_)
  exact List.filter_append_perm Row.located (peerRows data)

def chipFor (unlocated : Nat) : Option String :=
  if unlocated = 0 then none else some ("Location unknown: " ++ browser.number unlocated)

theorem chip_eq (expanded : Option String) (data : Document) :
    (updateMapView browser expanded data).chip = chipFor browser (collectSites browser data).unknown.nodes.length := by
  unfold updateMapView chipFor
  dsimp only
  split
  · rename_i some_node
    rw [if_neg (Nat.ne_of_gt some_node)]
  · rename_i none
    rw [if_pos (Nat.eq_zero_of_not_pos none)]

/-- Every peer of the document is in one circle or counted by the chip; the circles stand at distinct coordinates, each
for the nodes there in the order of the document; and the leaves are the nodes of the expanded one. -/
theorem map_shows_all (expanded : Option String) (data : Document) :
    let drawing := updateMapView browser expanded data
    let unlocated := drawing.unlocated.nodes
    (drawing.circles.map Circle.key).Nodup ∧
      (drawing.circles.flatMap (fun circle => circle.site.nodes) ++ unlocated).Perm ((peerRows data).map Row.node) ∧
      (∀ circle ∈ drawing.circles, circle.site.nodes = (rowsAt browser data circle.key).map Row.node ∧
        circle.site.nodes ≠ []) ∧
      drawing.chip = chipFor browser unlocated.length ∧
      drawing.leaves.map Leaf.node = (expanded.map fun key => (rowsAt browser data key).map Row.node).getD [] := by
  intro drawing unlocated
  obtain ⟨located, -⟩ := collectSites_eq browser data
  refine ⟨?_, ?_, ?_, chip_eq browser expanded data, leaves_eq browser expanded data⟩
  · have keys : drawing.circles.map Circle.key = (collectSites browser data).located.map Prod.fst := List.map_map
    rw [keys, located, List.map_map]
    exact groups_nodup (rowKey browser) _
  · exact drawn_perm browser expanded data
  · intro circle drawn
    obtain ⟨site, member, rfl⟩ := List.mem_map.mp drawn
    rw [located] at member
    obtain ⟨entry, grouped, rfl⟩ := List.mem_map.mp member
    obtain ⟨rows, filled⟩ := groups_at browser data grouped
    exact ⟨congrArg (List.map Row.node) rows, fun none => filled (List.map_eq_nil_iff.mp none)⟩

end

end KwaaiNetMap.Page
