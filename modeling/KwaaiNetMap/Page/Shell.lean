import KwaaiNetMap.Page.Fetch
import KwaaiNetMap.Page.Map
import KwaaiNetMap.Page.Topology

/-!
Three views of one document, fetched again and again. Only the view in front is drawn when a document arrives,
the others when they are opened, the topology a moment later. Whatever the order of clicks, answers and timers,
the view in front shows the document that arrived last, an open popup nodes of one that arrived (`page_current`). At
most one refresh timer runs, as the
controls say once they were touched, and before that only if they came up as the page sets them (`page_timers`).
-/

namespace KwaaiNetMap.Page
open Systems

inductive Tab where
  | map | table | topology
  deriving DecidableEq

/-- `TAB_HASHES`. -/
def Tab.hash : Tab → String
  | .map => "map"
  | .table => "table"
  | .topology => "topology"

def tabOfHash (hash : String) : Option Tab := [Tab.map, .table, .topology].find? fun tab => tab.hash = hash

structure Clock where
  timers : List (Nat × Nat)
  intervalId : Option Nat
  nextTimer : Nat
  refreshEnabled : Bool
  interval : Nat

structure Shell extends Clock where
  active : Tab
  fragment : String
  currentData : Option Fetched
  dots : List String
  expanded : Option String
  drawing : Drawing
  popup : Option String
  /-- The container of the map has a size. -/
  sized : Bool
  table : TableView
  networkInitialized : Bool
  topology : Topology
  /-- Fetches under way. -/
  fetching : Nat
  /-- Timeouts under way that will draw the topology. -/
  redraws : Nat

inductive PageEvent where
  | tab (tab : Tab)
  | hashchange (fragment : String)
  | tick (id : Nat)
  | arrived (data : Fetched)
  | failed
  | redraw
  | refreshToggled
  | intervalSelected (interval : Nat)
  /-- The window is resized, and the container of the map with it. -/
  | resize (sized : Bool)
  | table (event : TableEvent)
  /-- A click on a circle, on a leaf of the expanded one, on the chip, or beside them all. -/
  | site (key : String)
  | leaf (k : Nat)
  | chip
  | mapClick
  | zoom
  | popupClosed
  /-- The layout writes down where it put the nodes. -/
  | stored (place : String → Float × Float)

/-! ### Views -/

def Shell.document (s : Shell) : Document :=
  (s.currentData.map Fetched.toDocument).getD { peers := none, modelReports := [] }

def bootstrapDots (bootstrapStates : Option (List String)) : List String :=
  (bootstrapStates.getD []).map fun state => if state = "online" then "status-dot online" else "status-dot offline"

section
variable (engine : Engine) (vis : DataSet)

def Shell.drawMap (s : Shell) : Shell :=
  { s with drawing := updateMapView engine.toBrowser s.expanded s.document }

def Shell.drawTable (s : Shell) : Shell := { s with table := updateTableView engine s.table s.document }

def Shell.drawTopology (s : Shell) : Shell :=
  { s with networkInitialized := true, topology := updateNetworkView engine.toBrowser s.document vis s.topology.nodes }

def Shell.closePopup (s : Shell) : Shell := { s with popup := none }

def Shell.openPopup (s : Shell) (site : Site) : Shell := { s with popup := some (Page.openPopup engine.toBrowser site) }

/-- A container without a size keeps the layout it had; a new one zooms home, which closes the popup. -/
def Shell.layoutMap (s : Shell) : Shell :=
  if !s.sized then s
  else
    let s := s.closePopup
    if s.currentData.isSome then s.drawMap engine else s

def Shell.activateTab (s : Shell) (tab : Tab) : Shell :=
  let s := { s with active := tab, fragment := tab.hash }
  if s.currentData.isSome then
    match tab with
    | .map => s.layoutMap engine
    | .table => s.drawTable engine
    | .topology => { s with redraws := s.redraws + 1 }
  else s

def Shell.activateTabFromHash (s : Shell) : Shell :=
  match tabOfHash s.fragment with
  | some tab => if s.active ≠ tab then s.activateTab engine tab else s
  | none => s

/-- `fetchAndUpdateViews`, once the document is there. -/
def Shell.received (s : Shell) (data : Fetched) : Shell :=
  let s := { s with currentData := some data, dots := bootstrapDots data.bootstrapStates }
  match s.active with
  | .map => s.drawMap engine
  | .table => s.drawTable engine
  | .topology => s.drawTopology engine vis

end

/-! ### Timers -/

namespace Clock

def clearInterval (clock : Clock) : Clock :=
  { clock with timers := clock.timers.filter fun timer => some timer.1 ≠ clock.intervalId }

def startUpdatingViews (clock : Clock) (interval : Nat) : Clock :=
  let clock := clock.clearInterval
  { clock with
    timers := clock.timers ++ [(clock.nextTimer, interval)]
    intervalId := some clock.nextTimer
    nextTimer := clock.nextTimer + 1 }

def stopUpdatingViews (clock : Clock) : Clock := { clock.clearInterval with intervalId := none }

def refreshToggled (clock : Clock) : Clock :=
  let clock := { clock with refreshEnabled := !clock.refreshEnabled }
  if clock.refreshEnabled then clock.startUpdatingViews clock.interval else clock.stopUpdatingViews

def intervalSelected (clock : Clock) (interval : Nat) : Clock :=
  let clock := { clock with interval }
  if clock.refreshEnabled then clock.startUpdatingViews interval else clock

end Clock

section
variable (engine : Engine) (vis : DataSet)

/-- The page as parsed, with what the browser puts back into the search box and the controls. -/
def Shell.parsed (fragment search : String) (refreshEnabled : Bool) (interval : Nat) (sized : Bool) : Shell :=
  { timers := [], intervalId := none, nextTimer := 1, refreshEnabled, interval
    active := .map, fragment, currentData := none, dots := [], expanded := none
    drawing := { circles := [], leaves := [], chip := none, unlocated := { label := "Location unknown", nodes := [] } }
    popup := none, sized
    table := .loaded search
    networkInitialized := false
    topology := { whole := true, fitted := false }
    fetching := 0, redraws := 0 }

def Shell.loaded (fragment search : String) (refreshEnabled : Bool) (interval : Nat) (sized : Bool) : Shell :=
  let s := (Shell.parsed fragment search refreshEnabled interval sized).activateTabFromHash engine
  { s with fetching := s.fetching + 1, toClock := s.toClock.startUpdatingViews 5000 }

def pageStep (s : Shell) : PageEvent → Option Shell
  | .tab tab => some (s.activateTab engine tab)
  | .hashchange fragment => some ({ s with fragment }.activateTabFromHash engine)
  | .tick id => if id ∈ s.timers.map Prod.fst then some { s with fetching := s.fetching + 1 } else none
  | .arrived data =>
    if 0 < s.fetching then some ({ s with fetching := s.fetching - 1 }.received engine vis data) else none
  | .failed => if 0 < s.fetching then some { s with fetching := s.fetching - 1 } else none
  | .redraw => if 0 < s.redraws then some ({ s with redraws := s.redraws - 1 }.drawTopology engine vis) else none
  | .refreshToggled => some { s with toClock := s.toClock.refreshToggled }
  | .intervalSelected interval => some { s with toClock := s.toClock.intervalSelected interval }
  | .resize sized =>
    let s := { s with sized }
    some (if s.active = .map then s.layoutMap engine else s)
  | .table event =>
    if s.active = .table then
      match event with
      | .refresh _ => none
      | event => some { s with table := step engine s.table event }
    else none
  | .site key =>
    if s.active = .map then
      (s.drawing.circles.find? fun circle => circle.key = key).map fun circle =>
        if circle.count.isSome then
          { s.closePopup with expanded := if s.expanded = some key then none else some key }.drawMap engine
        else s.openPopup engine circle.site
    else none
  | .leaf k =>
    if s.active = .map then
      (s.drawing.leaves[k]?).map fun leaf => s.openPopup engine leaf.popup
    else none
  | .chip =>
    if s.active = .map ∧ s.drawing.chip.isSome then some (s.openPopup engine s.drawing.unlocated) else none
  | .mapClick =>
    if s.active = .map then
      let s := s.closePopup
      some (if s.expanded.isSome then { s with expanded := none }.drawMap engine else s)
    else none
  | .zoom => if s.active = .map then some s.closePopup else none
  | .popupClosed => if s.active = .map then some s.closePopup else none
  | .stored place =>
    some { s with topology := { s.topology with
      nodes := s.topology.nodes.map fun node => { node with position := some (place node.id) } } }

end

/-! ### What an event does -/

def Drawing.popups (drawing : Drawing) : List Site :=
  drawing.circles.map Circle.site ++ drawing.leaves.map Leaf.popup ++
    (drawing.chip.map fun _ => drawing.unlocated).toList

def PageEvent.atPopup : PageEvent → Bool
  | .site _ | .leaf _ | .chip | .mapClick | .zoom | .popupClosed => true
  | _ => false

inductive Moves (engine : Engine) (vis : DataSet) (s : Shell) : PageEvent → Shell → Prop where
  | tab (tab : Tab) : Moves engine vis s (.tab tab) (s.activateTab engine tab)
  | hashchange (fragment : String) :
      Moves engine vis s (.hashchange fragment) ({ s with fragment }.activateTabFromHash engine)
  | tick {id : Nat} (running : id ∈ s.timers.map Prod.fst) :
      Moves engine vis s (.tick id) { s with fetching := s.fetching + 1 }
  | arrived (data : Fetched) :
      Moves engine vis s (.arrived data) ({ s with fetching := s.fetching - 1 }.received engine vis data)
  | failed : Moves engine vis s .failed { s with fetching := s.fetching - 1 }
  | redraw : Moves engine vis s .redraw ({ s with redraws := s.redraws - 1 }.drawTopology engine vis)
  | refreshToggled : Moves engine vis s .refreshToggled { s with toClock := s.toClock.refreshToggled }
  | intervalSelected (interval : Nat) :
      Moves engine vis s (.intervalSelected interval) { s with toClock := s.toClock.intervalSelected interval }
  | resized (sized : Bool) (front : s.active = .map) :
      Moves engine vis s (.resize sized) ({ s with sized }.layoutMap engine)
  | hidden (sized : Bool) (behind : s.active ≠ .map) : Moves engine vis s (.resize sized) { s with sized }
  | browsed {event : TableEvent} (front : s.active = .table) (browsing : ∀ data, event ≠ .refresh data) :
      Moves engine vis s (.table event) { s with table := step engine s.table event }
  | unfolded {key : String} (front : s.active = .map) (expanded : Option String) :
      Moves engine vis s (.site key) ({ s.closePopup with expanded }.drawMap engine)
  | folded (front : s.active = .map) :
      Moves engine vis s .mapClick ({ s.closePopup with expanded := none }.drawMap engine)
  | opened {event : PageEvent} (clicked : event.atPopup = true) {site : Site} (shown : site ∈ s.drawing.popups) :
      Moves engine vis s event (s.openPopup engine site)
  | closed {event : PageEvent} (clicked : event.atPopup = true) : Moves engine vis s event s.closePopup
  | stored (place : String → Float × Float) :
      Moves engine vis s (.stored place) { s with topology := { s.topology with
        nodes := s.topology.nodes.map fun node => { node with position := some (place node.id) } } }

theorem guarded {p : Prop} [Decidable p] {s t : Shell} (stepped : (if p then some s else none) = some t) :
    p ∧ s = t := by
  obtain ⟨holds, same⟩ := Option.ite_none_right_eq_some.mp stepped
  exact ⟨holds, Option.some.inj same⟩

theorem mem_popups_circle {drawing : Drawing} {circle : Circle} (drawn : circle ∈ drawing.circles) :
    circle.site ∈ drawing.popups :=
  List.mem_append_left _ (List.mem_append_left _ (List.mem_map_of_mem drawn))

theorem mem_popups_leaf {drawing : Drawing} {leaf : Leaf} (drawn : leaf ∈ drawing.leaves) :
    leaf.popup ∈ drawing.popups :=
  List.mem_append_left _ (List.mem_append_right _ (List.mem_map_of_mem drawn))

theorem mem_popups_chip {drawing : Drawing} (shown : drawing.chip.isSome = true) :
    drawing.unlocated ∈ drawing.popups := by
  obtain ⟨text, chip⟩ := Option.isSome_iff_exists.mp shown
  refine List.mem_append_right _ ?_
  rw [chip]
  exact List.mem_singleton_self _

theorem pageStep_moves {engine : Engine} {vis : DataSet} {s t : Shell} {event : PageEvent}
    (stepped : pageStep engine vis s event = some t) : Moves engine vis s event t := by
  cases event with
  | tab tab =>
    obtain rfl := Option.some.inj stepped
    exact .tab tab
  | hashchange fragment =>
    obtain rfl := Option.some.inj stepped
    exact .hashchange fragment
  | tick id =>
    obtain ⟨running, rfl⟩ := guarded stepped
    exact .tick running
  | arrived data =>
    obtain ⟨-, rfl⟩ := guarded stepped
    exact .arrived data
  | failed =>
    obtain ⟨-, rfl⟩ := guarded stepped
    exact .failed
  | redraw =>
    obtain ⟨-, rfl⟩ := guarded stepped
    exact .redraw
  | refreshToggled =>
    obtain rfl := Option.some.inj stepped
    exact .refreshToggled
  | intervalSelected interval =>
    obtain rfl := Option.some.inj stepped
    exact .intervalSelected interval
  | resize sized =>
    obtain rfl := Option.some.inj stepped
    split
    · rename_i front
      exact .resized sized front
    · rename_i behind
      exact .hidden sized behind
  | table event =>
    obtain ⟨front, browsed⟩ := Option.ite_none_right_eq_some.mp stepped
    cases event with
    | refresh data => cases browsed
    | header field =>
      obtain rfl := Option.some.inj browsed
      exact .browsed front (by simp)
    | previous =>
      obtain rfl := Option.some.inj browsed
      exact .browsed front (by simp)
    | next =>
      obtain rfl := Option.some.inj browsed
      exact .browsed front (by simp)
    | input search =>
      obtain rfl := Option.some.inj browsed
      exact .browsed front (by simp)
  | site key =>
    obtain ⟨front, clicked⟩ := Option.ite_none_right_eq_some.mp stepped
    obtain ⟨circle, found, rfl⟩ := Option.map_eq_some_iff.mp clicked
    split
    · exact .unfolded front _
    · exact .opened rfl (mem_popups_circle (List.mem_of_find?_eq_some found))
  | leaf k =>
    obtain ⟨-, clicked⟩ := Option.ite_none_right_eq_some.mp stepped
    obtain ⟨leaf, found, rfl⟩ := Option.map_eq_some_iff.mp clicked
    exact .opened rfl (mem_popups_leaf (List.mem_of_getElem? found))
  | chip =>
    obtain ⟨⟨-, shown⟩, rfl⟩ := guarded stepped
    exact .opened rfl (mem_popups_chip shown)
  | mapClick =>
    obtain ⟨front, rfl⟩ := guarded stepped
    split
    · exact .folded front
    · exact .closed rfl
  | zoom =>
    obtain ⟨-, rfl⟩ := guarded stepped
    exact .closed rfl
  | popupClosed =>
    obtain ⟨-, rfl⟩ := guarded stepped
    exact .closed rfl
  | stored place =>
    obtain rfl := Option.some.inj stepped
    exact .stored place

/-! ### The view in front -/

def VisNode.unplaced (node : VisNode) : VisNode := { node with position := none, fixed := false }

/-- The same graph, wherever its nodes are. -/
structure Alike (graph other : Topology) : Prop where
  nodes : graph.nodes.map VisNode.unplaced = other.nodes.map VisNode.unplaced
  edges : graph.edges = other.edges
  modelGroups : graph.modelGroups = other.modelGroups
  whole : graph.whole = other.whole

theorem keepPlace_unplaced (existing : List VisNode) (node : VisNode) :
    (keepPlace existing node).unplaced = node.unplaced := by
  unfold keepPlace
  split <;> rfl

theorem view_alike {vis : DataSet} (documented : vis.Documented) (browser : Browser) (data : Document)
    (existing other : List VisNode) :
    Alike (updateNetworkView browser data vis existing) (updateNetworkView browser data vis other) := by
  rw [updateNetworkView_eq _ _ _ documented, updateNetworkView_eq _ _ _ documented]
  have placed (saved : List VisNode) : (documentedView data browser saved).nodes.map VisNode.unplaced =
      (graphOf data browser (admitted data)).nodes.map VisNode.unplaced := by
    rw [view_nodes]
    split
    · rw [List.map_map]
      exact List.map_congr_left fun node _ => keepPlace_unplaced saved node
    · rfl
  refine ⟨(placed existing).trans (placed other).symm, ?_, ?_, ?_⟩
  · rw [view_edges, view_edges]
  · unfold documentedView
    split <;> rfl
  · rw [Bool.eq_iff_iff, view_whole, view_whole]

theorem alike_stored {graph other : Topology} (place : String → Float × Float) (alike : Alike graph other) :
    Alike { graph with nodes := graph.nodes.map fun node => { node with position := some (place node.id) } } other := by
  refine ⟨?_, alike.edges, alike.modelGroups, alike.whole⟩
  rw [← alike.nodes, List.map_map]
  rfl

section
variable (engine : Engine) (vis : DataSet)

/-- That view shows the document: the map while its container has a size, the topology at the latest when its
timeout is over. -/
def InView (tab : Tab) (s : Shell) (data : Document) : Prop :=
  match tab with
  | .map => s.sized = true → s.drawing = updateMapView engine.toBrowser s.expanded data
  | .table => s.table.tableData = tableRows engine data
  | .topology => 0 < s.redraws ∨ Alike s.topology (updateNetworkView engine.toBrowser data vis [])

def Shown (s : Shell) : Prop := ∀ data, s.currentData = some data → InView engine vis s.active s data.toDocument

theorem document_eq {s : Shell} {data : Fetched} (current : s.currentData = some data) :
    s.document = data.toDocument := by
  rw [Shell.document, current]
  rfl

variable {engine vis} {s : Shell}

theorem shown_front (tab : Tab) (front : s.active = tab)
    (inView : ∀ data, s.currentData = some data → InView engine vis tab s data.toDocument) : Shown engine vis s := by
  rw [Shown, front]
  exact inView

theorem shown_drawMap (front : s.active = .map) : Shown engine vis (s.drawMap engine) := by
  refine shown_front .map front fun data current _ => ?_
  show updateMapView engine.toBrowser s.expanded s.document = updateMapView engine.toBrowser s.expanded data.toDocument
  rw [document_eq (s := s) current]

theorem shown_drawTable (front : s.active = .table) : Shown engine vis (s.drawTable engine) := by
  refine shown_front .table front fun data current => ?_
  show tableRows engine s.document = tableRows engine data.toDocument
  rw [document_eq (s := s) current]

theorem shown_behind {networkInitialized : Bool} {topology : Topology} {redraws : Nat} (front : s.active ≠ .topology)
    (shown : Shown engine vis s) : Shown engine vis { s with networkInitialized, topology, redraws } := by
  intro data current
  have before := shown data current
  show InView engine vis s.active { s with networkInitialized, topology, redraws } data.toDocument
  cases tab : s.active with
  | topology => exact absurd tab front
  | map =>
    rw [tab] at before
    exact before
  | table =>
    rw [tab] at before
    exact before

theorem shown_hidden {sized : Bool} (front : s.active ≠ .map) (shown : Shown engine vis s) :
    Shown engine vis { s with sized } := by
  intro data current
  have before := shown data current
  show InView engine vis s.active { s with sized } data.toDocument
  cases tab : s.active with
  | map => exact absurd tab front
  | table =>
    rw [tab] at before
    exact before
  | topology =>
    rw [tab] at before
    exact before

theorem shown_drawTopology (documented : vis.Documented) (shown : s.active = .topology ∨ Shown engine vis s) :
    Shown engine vis (s.drawTopology engine vis) := by
  by_cases front : s.active = .topology
  · refine shown_front .topology front fun data current => Or.inr ?_
    rw [← document_eq (s := s) current]
    exact view_alike documented _ _ _ _
  · exact shown_behind front (shown.resolve_left front)

theorem shown_nothing (nothing : s.currentData = none) : Shown engine vis s := by
  intro data current
  rw [nothing] at current
  cases current

theorem shown_layoutMap (front : s.active = .map) : Shown engine vis (s.layoutMap engine) := by
  unfold Shell.layoutMap
  split
  · rename_i unsized
    refine shown_front .map front fun data _ sized => ?_
    rw [sized] at unsized
    cases unsized
  · dsimp only
    split
    · exact shown_drawMap (s := s.closePopup) front
    · rename_i nothing
      exact shown_nothing (s := s.closePopup) (Option.not_isSome_iff_eq_none.mp nothing)

theorem shown_activateTab (tab : Tab) : Shown engine vis (s.activateTab engine tab) := by
  unfold Shell.activateTab
  dsimp only
  by_cases loaded : s.currentData.isSome = true
  · rw [if_pos loaded]
    cases tab with
    | map => exact shown_layoutMap rfl
    | table => exact shown_drawTable rfl
    | topology => exact fun data current => Or.inl (Nat.succ_pos _)
  · rw [if_neg loaded]
    exact shown_nothing (Option.not_isSome_iff_eq_none.mp loaded)

theorem shown_activateTabFromHash (shown : Shown engine vis s) : Shown engine vis (s.activateTabFromHash engine) := by
  unfold Shell.activateTabFromHash
  split
  · split
    · exact shown_activateTab _
    · exact shown
  · exact shown

theorem shown_received (documented : vis.Documented) (data : Fetched) :
    Shown engine vis (s.received engine vis data) := by
  unfold Shell.received
  dsimp only
  split
  · rename_i front
    exact shown_drawMap front
  · rename_i front
    exact shown_drawTable front
  · rename_i front
    exact shown_drawTopology documented (Or.inl front)

theorem step_tableData {view : TableView} {event : TableEvent} (browsing : ∀ data, event ≠ .refresh data) :
    (step engine view event).tableData = view.tableData := by
  cases event with
  | header field =>
    show (if field = view.sortField then _ else _ : TableView).tableData = view.tableData
    split <;> rfl
  | previous => rw [step]; split <;> rfl
  | next => rw [step]; split <;> rfl
  | input search => rfl
  | refresh data => exact absurd rfl (browsing data)

theorem shown_move (documented : vis.Documented) {event : PageEvent} {t : Shell} (shown : Shown engine vis s)
    (move : Moves engine vis s event t) : Shown engine vis t := by
  cases move with
  | tab tab => exact shown_activateTab tab
  | hashchange fragment => exact shown_activateTabFromHash (s := { s with fragment }) shown
  | tick running => exact shown
  | arrived data => exact shown_received documented data
  | failed => exact shown
  | redraw =>
    refine shown_drawTopology documented ?_
    by_cases front : s.active = .topology
    · exact Or.inl front
    · exact Or.inr (shown_behind front shown)
  | refreshToggled => exact shown
  | intervalSelected interval => exact shown
  | resized sized front => exact shown_layoutMap front
  | hidden sized behind => exact shown_hidden behind shown
  | browsed front browsing =>
    refine shown_front .table front fun data current => ?_
    have before := shown data current
    rw [front] at before
    exact (step_tableData browsing).trans before
  | unfolded front expanded => exact shown_drawMap front
  | folded front => exact shown_drawMap front
  | opened clicked drawn => exact shown
  | closed clicked => exact shown
  | stored place =>
    by_cases front : s.active = .topology
    · refine shown_front .topology front fun data current => ?_
      have before := shown data current
      rw [front] at before
      exact before.imp_right (alike_stored place)
    · exact shown_behind front shown

/-! ### Beside the views -/

structure Redrawn (engine : Engine) (s t : Shell) : Prop where
  currentData : t.currentData = s.currentData
  dots : t.dots = s.dots
  clock : t.toClock = s.toClock
  settled : Settled engine s.table → Settled engine t.table

theorem redrawn_layoutMap : Redrawn engine s (s.layoutMap engine) := by
  unfold Shell.layoutMap
  dsimp only
  split
  · exact ⟨rfl, rfl, rfl, id⟩
  · split <;> exact ⟨rfl, rfl, rfl, id⟩

theorem redrawn_activateTab (tab : Tab) : Redrawn engine s (s.activateTab engine tab) := by
  unfold Shell.activateTab
  dsimp only
  split
  · cases tab with
    | map =>
      have same := @redrawn_layoutMap engine { s with active := .map, fragment := Tab.map.hash }
      exact ⟨same.currentData, same.dots, same.clock, same.settled⟩
    | table => exact ⟨rfl, rfl, rfl, fun settled => settled_step settled (.refresh s.document)⟩
    | topology => exact ⟨rfl, rfl, rfl, id⟩
  · exact ⟨rfl, rfl, rfl, id⟩

theorem redrawn_activateTabFromHash : Redrawn engine s (s.activateTabFromHash engine) := by
  unfold Shell.activateTabFromHash
  split
  · split
    · exact redrawn_activateTab _
    · exact ⟨rfl, rfl, rfl, id⟩
  · exact ⟨rfl, rfl, rfl, id⟩

def arrivedAfter (last : Option Fetched) : PageEvent → Option Fetched
  | .arrived data => some data
  | _ => last

def clockAfter (clock : Clock) : PageEvent → Clock
  | .refreshToggled => clock.refreshToggled
  | .intervalSelected interval => clock.intervalSelected interval
  | _ => clock

def dotsOf (data : Option Fetched) : List String := bootstrapDots (data.bind Fetched.bootstrapStates)

theorem received_beside (data : Fetched) :
    (s.received engine vis data).currentData = some data ∧ (s.received engine vis data).dots = dotsOf (some data) ∧
      (s.received engine vis data).toClock = s.toClock ∧
      (Settled engine s.table → Settled engine (s.received engine vis data).table) := by
  unfold Shell.received
  dsimp only
  split
  · exact ⟨rfl, rfl, rfl, id⟩
  · exact ⟨rfl, rfl, rfl, fun settled => settled_step settled (.refresh _)⟩
  · exact ⟨rfl, rfl, rfl, id⟩

theorem move_beside {event : PageEvent} {t : Shell} (move : Moves engine vis s event t) :
    (t.currentData, t.toClock) = (arrivedAfter s.currentData event, clockAfter s.toClock event) ∧
      (s.dots = dotsOf s.currentData → t.dots = dotsOf t.currentData) ∧
      (Settled engine s.table → Settled engine t.table) := by
  have redrawn {t : Shell} (same : Redrawn engine s t) :
      (t.currentData, t.toClock) = (s.currentData, s.toClock) ∧
        (s.dots = dotsOf s.currentData → t.dots = dotsOf t.currentData) ∧
        (Settled engine s.table → Settled engine t.table) := by
    refine ⟨Prod.ext same.currentData same.clock, fun dots => ?_, same.settled⟩
    rw [same.dots, same.currentData, dots]
  cases move with
  | tab tab => exact redrawn (redrawn_activateTab tab)
  | hashchange fragment =>
    have same : Redrawn engine { s with fragment } (({ s with fragment } : Shell).activateTabFromHash engine) :=
      redrawn_activateTabFromHash
    exact redrawn ⟨same.currentData, same.dots, same.clock, same.settled⟩
  | arrived data =>
    obtain ⟨current, dots, clock, settled⟩ :=
      @received_beside engine vis { s with fetching := s.fetching - 1 } data
    exact ⟨Prod.ext current clock, fun _ => by rw [dots, current], settled⟩
  | browsed front browsing => exact ⟨rfl, id, fun settled => settled_step settled _⟩
  | resized sized front =>
    have same := @redrawn_layoutMap engine { s with sized }
    exact redrawn ⟨same.currentData, same.dots, same.clock, same.settled⟩
  | opened clicked drawn =>
    cases event <;> first | exact ⟨rfl, id, id⟩ | cases clicked
  | closed clicked =>
    cases event <;> first | exact ⟨rfl, id, id⟩ | cases clicked
  | refreshToggled => exact ⟨rfl, id, id⟩
  | intervalSelected interval => exact ⟨rfl, id, id⟩
  | _ => exact ⟨rfl, id, id⟩

def Named (s : Shell) : Prop := ∀ tab, tabOfHash s.fragment = some tab → s.active = tab

theorem tabOfHash_hash (tab : Tab) : tabOfHash tab.hash = some tab := by
  cases tab <;> rfl

theorem named_layoutMap :
    (s.layoutMap engine).active = s.active ∧ (s.layoutMap engine).fragment = s.fragment := by
  unfold Shell.layoutMap
  dsimp only
  split
  · exact ⟨rfl, rfl⟩
  · split <;> exact ⟨rfl, rfl⟩

theorem named_activateTab (tab : Tab) : Named (s.activateTab engine tab) := by
  have both : (s.activateTab engine tab).active = tab ∧ (s.activateTab engine tab).fragment = tab.hash := by
    unfold Shell.activateTab
    dsimp only
    split
    · cases tab with
      | map => exact named_layoutMap
      | table => exact ⟨rfl, rfl⟩
      | topology => exact ⟨rfl, rfl⟩
    · exact ⟨rfl, rfl⟩
  intro other names
  rw [both.2, tabOfHash_hash] at names
  rw [both.1]
  exact Option.some.inj names

theorem named_activateTabFromHash : Named (s.activateTabFromHash engine) := by
  unfold Shell.activateTabFromHash
  split
  · rename_i tab names
    split
    · exact named_activateTab tab
    · rename_i front
      intro other same
      rw [names] at same
      exact (not_not.mp front).trans (Option.some.inj same)
  · rename_i nothing
    intro tab names
    rw [nothing] at names
    cases names

theorem named_move {event : PageEvent} {t : Shell} (named : Named s) (move : Moves engine vis s event t) : Named t := by
  cases move with
  | tab tab => exact named_activateTab tab
  | hashchange fragment => exact named_activateTabFromHash
  | arrived data =>
    unfold Shell.received
    dsimp only
    split <;> exact named
  | resized sized front =>
    have same := @named_layoutMap engine { s with sized }
    rw [Named, same.1, same.2]
    exact named
  | _ => exact named

end

/-! ### Timers over a run -/

namespace Clock

def Single (clock : Clock) : Prop := clock.timers.map Prod.fst = clock.intervalId.toList

def Governed (clock : Clock) : Prop :=
  clock.timers.map Prod.snd = if clock.refreshEnabled then [clock.interval] else []

variable {clock : Clock}

theorem clearInterval_timers (single : clock.Single) : clock.clearInterval.timers = [] := by
  refine List.filter_eq_nil_iff.mpr fun timer member => ?_
  have listed : timer.1 ∈ clock.intervalId.toList := single ▸ List.mem_map_of_mem member
  rw [Option.mem_toList.mp listed]
  simp

theorem startUpdatingViews_timers (single : clock.Single) (interval : Nat) :
    (clock.startUpdatingViews interval).timers = [(clock.nextTimer, interval)] := by
  show clock.clearInterval.timers ++ _ = _
  rw [clearInterval_timers single]
  rfl

theorem single_start (single : clock.Single) (interval : Nat) : (clock.startUpdatingViews interval).Single := by
  rw [Single, startUpdatingViews_timers single]
  rfl

theorem refreshToggled_obeys (single : clock.Single) : clock.refreshToggled.Single ∧ clock.refreshToggled.Governed := by
  have single' : { clock with refreshEnabled := !clock.refreshEnabled }.Single := single
  unfold refreshToggled
  dsimp only
  split
  · rename_i on
    refine ⟨single_start single' _, ?_⟩
    rw [Governed, startUpdatingViews_timers single']
    exact (if_pos on).symm
  · rename_i off
    have stopped := clearInterval_timers single'
    refine ⟨?_, ?_⟩
    · show List.map Prod.fst (clearInterval _).timers = []
      rw [stopped]
      rfl
    · show List.map Prod.snd (clearInterval _).timers = _
      rw [stopped]
      exact (if_neg off).symm

theorem intervalSelected_obeys (single : clock.Single) (interval : Nat) :
    (clock.intervalSelected interval).Single ∧
      (clock.intervalSelected interval).refreshEnabled = clock.refreshEnabled ∧
      ((clock.intervalSelected interval).Governed ↔ clock.Governed ∨ clock.refreshEnabled = true) := by
  have single' : { clock with interval }.Single := single
  unfold intervalSelected
  dsimp only
  split
  · rename_i on
    refine ⟨single_start single' interval, rfl, iff_of_true ?_ (Or.inr on)⟩
    rw [Governed, startUpdatingViews_timers single']
    exact (if_pos on).symm
  · rename_i off
    refine ⟨single, rfl, ?_⟩
    show (_ = if clock.refreshEnabled then _ else _) ↔ (_ = if clock.refreshEnabled then _ else _) ∨ _
    rw [if_neg off, if_neg off]
    exact ⟨Or.inl, fun either => either.resolve_right off⟩

theorem run_governed (single : clock.Single) (events : List PageEvent) :
    (events.foldl clockAfter clock).Single ∧
      ((events.foldl clockAfter clock).Governed ↔
        clock.Governed ∨ .refreshToggled ∈ events ∨
          clock.refreshEnabled = true ∧ ∃ interval, .intervalSelected interval ∈ events) := by
  induction events generalizing clock with
  | nil => exact ⟨single, by simp⟩
  | cons event events ih =>
    rw [List.foldl_cons]
    have skipped (same : clockAfter clock event = clock) (other : event ≠ .refreshToggled)
        (other' : ∀ interval, event ≠ .intervalSelected interval) :
        (events.foldl clockAfter (clockAfter clock event)).Single ∧
          ((events.foldl clockAfter (clockAfter clock event)).Governed ↔
            clock.Governed ∨ .refreshToggled ∈ event :: events ∨
              clock.refreshEnabled = true ∧ ∃ interval, .intervalSelected interval ∈ event :: events) := by
      rw [same]
      simpa [other.symm, fun interval => (other' interval).symm] using ih single
    cases event with
    | refreshToggled =>
      obtain ⟨single, governed⟩ := refreshToggled_obeys single
      obtain ⟨later, iff⟩ := ih single
      exact ⟨later, iff_of_true (iff.mpr (Or.inl governed)) (Or.inr (Or.inl List.mem_cons_self))⟩
    | intervalSelected interval =>
      obtain ⟨single, same, selected⟩ := intervalSelected_obeys single interval
      obtain ⟨later, iff⟩ := ih single
      refine ⟨later, iff.trans ?_⟩
      show Governed (clock.intervalSelected interval) ∨ _ ∨
        (clock.intervalSelected interval).refreshEnabled = true ∧ _ ↔ _
      rw [same, selected]
      by_cases on : clock.refreshEnabled = true
      · exact iff_of_true (Or.inl (Or.inr on)) (Or.inr (Or.inr ⟨on, interval, List.mem_cons_self⟩))
      · simp [on]
    | _ => exact skipped rfl (by simp) (by simp)

end Clock

/-! ### The popup -/

/-- A site that a document of the run puts on the map. -/
def Clickable (engine : Engine) (events : List PageEvent) (site : Site) : Prop :=
  ∃ data, .arrived data ∈ events ∧ ∃ expanded, site ∈ (updateMapView engine.toBrowser expanded data.toDocument).popups

structure Traced (engine : Engine) (events : List PageEvent) (s : Shell) : Prop where
  current : ∀ data, s.currentData = some data → .arrived data ∈ events
  drawing : ∀ site ∈ s.drawing.popups, Clickable engine events site
  popup : ∀ text, s.popup = some text →
    ∃ site, Clickable engine events site ∧ text = Page.openPopup engine.toBrowser site

section
variable {engine : Engine} {vis : DataSet} {events : List PageEvent} {s : Shell}

theorem traced_drawMap (traced : Traced engine events s) : Traced engine events (s.drawMap engine) := by
  refine ⟨traced.current, fun site shown => ?_, traced.popup⟩
  cases current : s.currentData with
  | some data =>
    refine ⟨data, traced.current data current, s.expanded, ?_⟩
    rw [← document_eq current]
    exact shown
  | none =>
    -- nothing has come, and an empty map has nothing to click
    have empty : s.document = { peers := none, modelReports := [] } := by
      rw [Shell.document, current]
      rfl
    have drawn : site ∈ (updateMapView engine.toBrowser s.expanded s.document).popups := shown
    rw [empty] at drawn
    cases drawn

theorem traced_closePopup (traced : Traced engine events s) : Traced engine events s.closePopup :=
  ⟨traced.current, traced.drawing, fun _ open_ => nomatch open_⟩

theorem traced_openPopup (traced : Traced engine events s) {site : Site} (shown : site ∈ s.drawing.popups) :
    Traced engine events (s.openPopup engine site) := by
  refine ⟨traced.current, traced.drawing, fun text open_ => ⟨site, traced.drawing site shown, ?_⟩⟩
  exact (Option.some.inj open_).symm

theorem traced_layoutMap (traced : Traced engine events s) : Traced engine events (s.layoutMap engine) := by
  unfold Shell.layoutMap
  dsimp only
  split
  · exact traced
  · split
    · exact traced_drawMap (traced_closePopup traced)
    · exact traced_closePopup traced

theorem traced_activateTab (tab : Tab) (traced : Traced engine events s) :
    Traced engine events (s.activateTab engine tab) := by
  have shown : Traced engine events { s with active := tab, fragment := tab.hash } :=
    ⟨traced.current, traced.drawing, traced.popup⟩
  unfold Shell.activateTab
  dsimp only
  split
  · cases tab with
    | map => exact traced_layoutMap shown
    | table => exact ⟨traced.current, traced.drawing, traced.popup⟩
    | topology => exact ⟨traced.current, traced.drawing, traced.popup⟩
  · exact shown

theorem traced_activateTabFromHash (traced : Traced engine events s) :
    Traced engine events (s.activateTabFromHash engine) := by
  unfold Shell.activateTabFromHash
  split
  · split
    · exact traced_activateTab _ traced
    · exact traced
  · exact traced

theorem traced_received {data : Fetched} (arrived : .arrived data ∈ events) (traced : Traced engine events s) :
    Traced engine events (s.received engine vis data) := by
  have holding : Traced engine events
      { s with currentData := some data, dots := bootstrapDots data.bootstrapStates } :=
    ⟨fun _ current => Option.some.inj current ▸ arrived, traced.drawing, traced.popup⟩
  unfold Shell.received
  dsimp only
  split
  · exact traced_drawMap holding
  · exact ⟨holding.current, holding.drawing, holding.popup⟩
  · exact ⟨holding.current, holding.drawing, holding.popup⟩

theorem traced_move {event : PageEvent} {t : Shell} (listed : event ∈ events) (traced : Traced engine events s)
    (move : Moves engine vis s event t) : Traced engine events t := by
  cases move with
  | tab tab => exact traced_activateTab tab traced
  | hashchange fragment =>
    exact traced_activateTabFromHash (s := { s with fragment }) ⟨traced.current, traced.drawing, traced.popup⟩
  | arrived data =>
    exact traced_received (s := { s with fetching := s.fetching - 1 }) listed
      ⟨traced.current, traced.drawing, traced.popup⟩
  | resized sized front =>
    exact traced_layoutMap (s := { s with sized }) ⟨traced.current, traced.drawing, traced.popup⟩
  | unfolded front expanded =>
    have closed := traced_closePopup traced
    exact traced_drawMap (s := { s.closePopup with expanded }) ⟨closed.current, closed.drawing, closed.popup⟩
  | folded front =>
    have closed := traced_closePopup traced
    exact traced_drawMap (s := { s.closePopup with expanded := none }) ⟨closed.current, closed.drawing, closed.popup⟩
  | opened clicked shown => exact traced_openPopup traced shown
  | closed clicked => exact traced_closePopup traced
  | _ => exact ⟨traced.current, traced.drawing, traced.popup⟩

end

/-! ### Over a run -/

def lastArrived (events : List PageEvent) : Option Fetched := events.foldl arrivedAfter none

section
variable (engine : Engine) (fragment search : String) (refreshEnabled : Bool) (interval : Nat) (sized : Bool)

theorem loaded_start (vis : DataSet) :
    let s := Shell.loaded engine fragment search refreshEnabled interval sized
    Shown engine vis s ∧ Named s ∧ Settled engine s.table ∧ s.currentData = none ∧ s.dots = [] := by
  have same := @redrawn_activateTabFromHash engine (Shell.parsed fragment search refreshEnabled interval sized)
  refine ⟨shown_activateTabFromHash (shown_nothing rfl), named_activateTabFromHash,
    same.settled (settled_loaded engine search), same.currentData, same.dots⟩

theorem loaded_traced (events : List PageEvent) :
    Traced engine events (Shell.loaded engine fragment search refreshEnabled interval sized) := by
  have parsed : Traced engine events (Shell.parsed fragment search refreshEnabled interval sized) :=
    ⟨fun _ current => (nomatch current), fun _ shown => (nomatch shown), fun _ open_ => (nomatch open_)⟩
  have activated := traced_activateTabFromHash parsed
  exact ⟨activated.current, activated.drawing, activated.popup⟩

theorem loaded_clock :
    let clock := (Shell.loaded engine fragment search refreshEnabled interval sized).toClock
    clock.Single ∧ (clock.Governed ↔ refreshEnabled = true ∧ interval = 5000) ∧
      clock.refreshEnabled = refreshEnabled := by
  have same := @redrawn_activateTabFromHash engine (Shell.parsed fragment search refreshEnabled interval sized)
  have clock : (Shell.loaded engine fragment search refreshEnabled interval sized).toClock =
      (Shell.parsed fragment search refreshEnabled interval sized).toClock.startUpdatingViews 5000 := by
    rw [← same.clock]
    rfl
  rw [clock]
  refine ⟨rfl, ?_, rfl⟩
  show [5000] = (if refreshEnabled then [interval] else []) ↔ _
  cases refreshEnabled with
  | true => simp [eq_comm]
  | false => simp

end

section
variable (engine : Engine) {vis : DataSet} (fragment search : String) (refreshEnabled : Bool) (interval : Nat)
  (sized : Bool) {events : List PageEvent} {s : Shell}

theorem page_run (documented : vis.Documented)
    (ran : Systems.run (pageStep engine vis) (Shell.loaded engine fragment search refreshEnabled interval sized)
      events = some s) :
    s.currentData = lastArrived events ∧ Shown engine vis s ∧ Named s ∧ Settled engine s.table ∧
      s.dots = dotsOf s.currentData := by
  obtain ⟨shown, named, settled, nothing, dots⟩ :=
    loaded_start engine fragment search refreshEnabled interval sized vis
  refine ⟨?_, ?_⟩
  · have folded := run_foldl Shell.currentData arrivedAfter
      (fun m event t stepped => (Prod.mk.inj (move_beside (pageStep_moves stepped)).1).1) ran
    rwa [nothing] at folded
  · refine run_invariant
      (I := fun m => Shown engine vis m ∧ Named m ∧ Settled engine m.table ∧ m.dots = dotsOf m.currentData)
      ?_ ran ⟨shown, named, settled, by rw [dots, nothing]; rfl⟩
    intro m event t holds stepped
    obtain ⟨shown, named, settled, dots⟩ := holds
    have move := pageStep_moves stepped
    obtain ⟨-, dots', settled'⟩ := move_beside move
    exact ⟨shown_move documented shown move, named_move named move, settled' settled, dots' dots⟩

theorem traced_run
    (ran : Systems.run (pageStep engine vis) (Shell.loaded engine fragment search refreshEnabled interval sized)
      events = some s) : Traced engine events s := by
  have meets : Meets (pageStep engine vis) (fun _ event => event ∈ events)
      (Shell.loaded engine fragment search refreshEnabled interval sized) events :=
    meets_of_all (fun _ listed _ => listed) _
  refine run_invariant_meeting (I := Traced engine events) ?_ ran meets
    (loaded_traced engine fragment search refreshEnabled interval sized events)
  intro m event t traced listed stepped
  exact traced_move listed traced (pageStep_moves stepped)

/-- Whatever happens to the page, and in whatever order: it holds the document that arrived last, its dots are that
document's and the view in front shows it, the topology at the latest when its timeout is over. An open popup lists
nodes of a document that arrived. The table is settled, and a fragment that names a view names the one in front. -/
theorem page_current (documented : vis.Documented)
    (ran : Systems.run (pageStep engine vis) (Shell.loaded engine fragment search refreshEnabled interval sized)
      events = some s) :
    s.currentData = lastArrived events ∧
      s.dots = dotsOf (lastArrived events) ∧
      (∀ data, lastArrived events = some data → InView engine vis s.active s data.toDocument) ∧
      (∀ text, s.popup = some text →
        ∃ site, Clickable engine events site ∧ text = Page.openPopup engine.toBrowser site) ∧
      Settled engine s.table ∧
      ∀ tab, tabOfHash s.fragment = some tab → s.active = tab := by
  obtain ⟨current, shown, named, settled, dots⟩ :=
    page_run engine fragment search refreshEnabled interval sized documented ran
  have traced := traced_run engine fragment search refreshEnabled interval sized ran
  exact ⟨current, current ▸ dots, fun data last => shown data (current.trans last), traced.popup, settled, named⟩

end

/-- A peer without a place, the popup of the chip, and a second document that places the peer. -/
theorem page_current_second_document :
    let engine : Engine :=
      { number := Int.repr, decimal := fun _ => "0", toFixed := fun _ _ => "", inherited := fun _ => none
        toLowerCase := String.toLower, parseFloat := fun _ => 0 }
    let peer : Peer :=
      { peerId := "QmA", publicName := none, version := none, state := "online", shardLoading := false
        model := none, span := none, throughput := none, usingRelay := none, peerIpInfo := {} }
    let placed : Peer :=
      { peer with peerIpInfo := { location := { status := "success", country := "Norway", city := "Oslo" } } }
    let first : Fetched := { peers := some [peer], modelReports := [], bootstrapStates := some ["online"] }
    let second : Fetched := { peers := some [placed], modelReports := [], bootstrapStates := some ["offline"] }
    ∃ s, Systems.run (pageStep engine .listed) (Shell.loaded engine "map" "" true 5000 true)
        [.arrived first, .chip, .tick 1, .arrived second] = some s ∧
      s.dots = ["status-dot offline"] ∧
      (s.drawing.circles.map fun circle => circle.site.label) = ["Oslo, Norway"] ∧ s.drawing.chip = none ∧
      ∃ site, Clickable engine [.arrived first, .chip, .tick 1, .arrived second] site ∧
        s.popup = some (Page.openPopup engine.toBrowser site) := by
  intro engine peer placed first second
  have ran : Systems.run (pageStep engine .listed) (Shell.loaded engine "map" "" true 5000 true)
      [.arrived first, .chip, .tick 1, .arrived second] = some _ := rfl
  refine ⟨_, ran, ?_⟩
  obtain ⟨-, dots, shown, popup, -⟩ := page_current engine "map" "" true 5000 true DataSet.listed_documented ran
  have drawn := shown second rfl rfl
  obtain ⟨site, clickable, text⟩ := popup _ rfl
  refine ⟨dots, ?_, ?_, site, clickable, congrArg some text⟩
  · rw [drawn]
    rfl
  · rw [drawn]
    rfl

/-- Whatever happens to the page, the refresh timer that runs is the one `intervalId` names, and none runs beside
it. It runs as the controls say exactly when the box was clicked, or came up ticked with the interval at the five
seconds of the first timer or selected since. -/
theorem page_timers (engine : Engine) (vis : DataSet) (fragment search : String) (refreshEnabled : Bool)
    (interval : Nat) (sized : Bool) {events : List PageEvent} {s : Shell}
    (ran : Systems.run (pageStep engine vis) (Shell.loaded engine fragment search refreshEnabled interval sized)
      events = some s) :
    s.timers.map Prod.fst = s.intervalId.toList ∧
      (s.timers.map Prod.snd = (if s.refreshEnabled then [s.interval] else []) ↔
        .refreshToggled ∈ events ∨
          refreshEnabled = true ∧ (interval = 5000 ∨ ∃ selected, .intervalSelected selected ∈ events)) := by
  have clock : s.toClock =
      events.foldl clockAfter (Shell.loaded engine fragment search refreshEnabled interval sized).toClock :=
    run_foldl Shell.toClock clockAfter
      (fun m event t stepped => (Prod.mk.inj (move_beside (pageStep_moves stepped)).1).2) ran
  obtain ⟨single, governed, enabled⟩ := loaded_clock engine fragment search refreshEnabled interval sized
  obtain ⟨later, iff⟩ := Clock.run_governed single events
  rw [← clock, governed, enabled] at iff
  rw [← clock] at later
  refine ⟨later, iff.trans ?_⟩
  grind

/-- Reloaded with the box unticked, the page goes on refreshing. -/
theorem page_timers_restored :
    let engine : Engine :=
      { number := Int.repr, decimal := fun _ => "", toFixed := fun _ _ => "", inherited := fun _ => none
        toLowerCase := String.toLower, parseFloat := fun _ => 0 }
    ∃ s, Systems.run (pageStep engine .listed) (Shell.loaded engine "" "" false 5000 true) [.tick 1, .failed] =
        some s ∧
      s.refreshEnabled = false ∧ s.timers.map Prod.snd ≠ [] := by
  intro engine
  have ran : Systems.run (pageStep engine .listed) (Shell.loaded engine "" "" false 5000 true) [.tick 1, .failed] =
      some _ := rfl
  refine ⟨_, ran, rfl, ?_⟩
  have governed := (page_timers engine .listed "" "" false 5000 true ran).2
  intro stopped
  rcases governed.mp stopped with toggled | ⟨ticked, -⟩
  · simp at toggled
  · cases ticked

end KwaaiNetMap.Page
