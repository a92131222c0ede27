import KwaaiNetMap.Collections.Paging
import KwaaiNetMap.Page.Popup
import KwaaiNetMap.Systems.Runs
import Mathlib.Data.List.Sort

/-!
The table filters, sorts and cuts into pages the rows of the last document it was given. Its page number is
changed by the handlers of the headers, the buttons and the search box, and the rows by every refresh.
`table_pages_iff`: over any run it stays on a page there is, and so never shows none of the rows that match,
exactly when no refresh leaves fewer of them than the page it finds open needs.
-/

namespace KwaaiNetMap.Page
open Collections Numeric Systems

structure Engine extends Browser where
  toLowerCase : String → String
  parseFloat : String → Float

structure TableRow where
  model : String
  location : String
  publicName : String
  version : String
  peerId : String
  throughput : String
  state : String
  stateKey : String
  /-- Absent for `Infinity`. -/
  blockStart : Option Int
  connectionType : String
  deriving DecidableEq

/-! ### Rows -/

def identifiedRows (data : Document) : List (String × Row) :=
  match data.peers with
  | some peers => peers.map fun p => (p.peerId, ofPeer p)
  | none => data.modelReports.flatMap fun report =>
      report.serverRows.map fun row => (row.peerId, { model := some report.name, server := row.toServer })

theorem identifiedRows_rows (data : Document) : (identifiedRows data).map Prod.snd = peerRows data := by
  unfold identifiedRows peerRows
  cases data.peers with
  | some peers => simp
  | none => simp [List.map_flatMap, Function.comp_def]

def locationInfo (server : Server) : String :=
  match server.peerIpInfo.map PeerIpInfo.location with
  | some location =>
    if location.status = "success" then location.city ++ ", " ++ location.country else "Location Unknown"
  | none => "Location Unknown"

def tableRow (engine : Engine) (peerId : String) (row : Row) : TableRow :=
  let server := row.server
  let { name := publicName, version } := nameAndVersion server
  { model := modelLabel engine.toBrowser server (row.model.getD "")
    location := locationInfo server
    publicName
    version
    peerId
    -- the record's rate is a placeholder unless it is serving
    throughput := if server.state = "online" then throughputText engine.toBrowser server.throughput else "N/A"
    state := serverStatus engine.toBrowser server
    stateKey := server.state
    blockStart := server.span.bind Span.start
    connectionType := getConnectionType engine.toBrowser server }

def tableRows (engine : Engine) (data : Document) : List TableRow :=
  (identifiedRows data).map fun (peerId, row) => tableRow engine peerId row

def TableRow.values (engine : Engine) (row : TableRow) : List String :=
  [row.model, row.location, row.publicName, row.version, row.peerId, row.throughput, row.state, row.stateKey,
    (row.blockStart.map engine.number).getD "Infinity", row.connectionType]

def filterTableData (engine : Engine) (data : List TableRow) (searchTerm : String) : List TableRow :=
  if searchTerm = "" then data
  else
    let searchTerm := engine.toLowerCase searchTerm
    data.filter fun row =>
      (row.values engine).any fun value => Text.contains searchTerm.toList (engine.toLowerCase value).toList

/-! ### Sorting -/

inductive SortField where
  | publicName | location | peerId | version | connectionType | model | state | throughput
  deriving DecidableEq

inductive SortDirection where
  | asc | desc
  deriving DecidableEq

def TableRow.get (row : TableRow) : SortField → String
  | .publicName => row.publicName
  | .location => row.location
  | .peerId => row.peerId
  | .version => row.version
  | .connectionType => row.connectionType
  | .model => row.model
  | .state => row.state
  | .throughput => row.throughput

def codeUnits (c : Char) : List Nat :=
  if c.toNat < 0x10000 then [c.toNat]
  else [0xD800 + (c.toNat - 0x10000) / 0x400, 0xDC00 + (c.toNat - 0x10000) % 0x400]

def unitsBelow : List Nat → List Nat → Bool
  | _, [] => false
  | [], _ :: _ => true
  | a :: as, b :: bs => if a = b then unitsBelow as bs else decide (a < b)

/-- `<` on strings, unit by unit. -/
def textBelow (a b : String) : Bool := unitsBelow (a.toList.flatMap codeUnits) (b.toList.flatMap codeUnits)

def stateRank : List String := ["Serving", "Loading", "Idle", "Unreachable", "Unannounced", "Departed", "Unknown"]

def indexOf (names : List String) (name : String) : Int := ((names.idxOf? name).map Int.ofNat).getD (-1)

def parsedThroughput (engine : Engine) (throughput : String) : Float :=
  if throughput = "N/A" then -1 else engine.parseFloat throughput

def below (engine : Engine) (field : SortField) (a b : TableRow) : Bool :=
  match field with
  | .throughput => decide (parsedThroughput engine a.throughput < parsedThroughput engine b.throughput)
  | .state => decide (indexOf stateRank a.state < indexOf stateRank b.state)
  | field => textBelow (a.get field) (b.get field)

/-- `a.blockStart - b.blockStart` between doubles, as far as a comparator cares: a difference that is rounded
keeps its sign. -/
def blockDifference : Option Int → Option Int → Int
  | some a, some b => asDouble a - asDouble b
  | some _, none => -1
  | none, some _ => 1
  -- not a number, which sorts as equal
  | none, none => 0

def compareRows (engine : Engine) (field : SortField) (direction : SortDirection) (a b : TableRow) : Int :=
  if below engine field a b then
    if direction = .asc then -1 else 1
  else if below engine field b a then
    if direction = .asc then 1 else -1
  -- within a state, ranges read in block order either way up
  else if field = .state then blockDifference a.blockStart b.blockStart
  else 0

def sortTableData (engine : Engine) (data : List TableRow) (field : SortField) (direction : SortDirection) :
    List TableRow :=
  -- a stable sort, as the language's own is
  data.insertionSort fun a b => compareRows engine field direction a b ≤ 0

theorem sortTableData_perm (engine : Engine) (data : List TableRow) (field : SortField) (direction : SortDirection) :
    (sortTableData engine data field direction).Perm data := List.perm_insertionSort _ data

/-! ### Rendering -/

def rowsPerPage : Nat := 15

/-- What `renderTable` leaves in the document; a table without rows says "No data found". -/
structure Rendered where
  pageInfo : Nat × Nat
  previousDisabled : Bool
  nextDisabled : Bool
  rows : List TableRow
  indicator : Option (SortField × SortDirection)

structure TableView where
  tableData : List TableRow
  currentPage : Nat
  sortField : SortField
  sortDirection : SortDirection
  filteredData : List TableRow
  search : String
  rendered : Rendered

/-- The page as it loads, with whatever text the browser puts back into the search box. -/
def TableView.loaded (search : String) : TableView :=
  { tableData := []
    currentPage := 1
    sortField := .state
    sortDirection := .asc
    filteredData := []
    search
    rendered := { pageInfo := (1, 1), previousDisabled := true, nextDisabled := true, rows := [], indicator := none } }

def renderTable (engine : Engine) (view : TableView) : TableView :=
  let filteredData := filterTableData engine view.tableData view.search
  let filteredData := sortTableData engine filteredData view.sortField view.sortDirection
  let totalPages := pageCount rowsPerPage filteredData.length
  let startIndex := (view.currentPage - 1) * rowsPerPage
  let endIndex := min (startIndex + rowsPerPage) filteredData.length
  let pageData := filteredData.extract startIndex endIndex
  { view with
    filteredData
    rendered := {
      pageInfo := (view.currentPage, if totalPages = 0 then 1 else totalPages)
      previousDisabled := decide (view.currentPage ≤ 1)
      nextDisabled := decide (view.currentPage ≥ totalPages)
      rows := pageData
      -- an empty table is left before the indicators are drawn
      indicator := if pageData = [] then view.rendered.indicator else some (view.sortField, view.sortDirection) } }

/-! ### Events -/

inductive TableEvent where
  | header (field : SortField)
  | previous
  | next
  | input (search : String)
  | refresh (data : Document)

def SortDirection.toggled : SortDirection → SortDirection
  | .asc => .desc
  | .desc => .asc

def updateTableView (engine : Engine) (view : TableView) (data : Document) : TableView :=
  renderTable engine { view with tableData := tableRows engine data }

def step (engine : Engine) (view : TableView) : TableEvent → TableView
  | .header field =>
    let view :=
      if field = view.sortField then { view with sortDirection := view.sortDirection.toggled }
      else { view with sortField := field, sortDirection := .asc }
    renderTable engine { view with currentPage := 1 }
  | .previous =>
    if view.currentPage > 1 then renderTable engine { view with currentPage := view.currentPage - 1 } else view
  | .next =>
    if view.currentPage < pageCount rowsPerPage view.filteredData.length then
      renderTable engine { view with currentPage := view.currentPage + 1 }
    else view
  | .input search => renderTable engine { view with search, currentPage := 1 }
  | .refresh data => updateTableView engine view data

/-! ### What a render shows -/

section
variable (engine : Engine)

def ordered (view : TableView) : List TableRow :=
  sortTableData engine (filterTableData engine view.tableData view.search) view.sortField view.sortDirection

def pagesOf (view : TableView) : Nat := pageCount rowsPerPage (ordered engine view).length

structure Settled (view : TableView) : Prop where
  filtered : view.filteredData = ordered engine view
  rows : view.rendered.rows = page rowsPerPage (ordered engine view) (view.currentPage - 1)
  first : 1 ≤ view.currentPage

variable {engine} {view : TableView}

theorem settled_renderTable (first : 1 ≤ view.currentPage) : Settled engine (renderTable engine view) where
  filtered := rfl
  rows := extract_page (ordered engine view) (view.currentPage - 1)
  first := first

theorem ordered_perm : (ordered engine view).Perm (filterTableData engine view.tableData view.search) :=
  sortTableData_perm engine _ view.sortField view.sortDirection

variable (engine) in
theorem settled_loaded (search : String) : Settled engine (TableView.loaded search) := by
  have none : ordered engine (TableView.loaded search) = [] := by
    have nothing : filterTableData engine [] search = [] := by
      unfold filterTableData
      split <;> rfl
    exact List.perm_nil.mp (nothing ▸ ordered_perm)
  refine ⟨?_, ?_, Nat.le_refl 1⟩
  · rw [none]
    rfl
  · rw [none]
    rfl

/-! ### What a step does -/

variable (engine) in
def turnedTo (k : Nat) (view : TableView) : TableView := renderTable engine { view with currentPage := k }

@[simp] theorem turnedTo_currentPage (k : Nat) : (turnedTo engine k view).currentPage = k := rfl

@[simp] theorem ordered_turnedTo (k : Nat) : ordered engine (turnedTo engine k view) = ordered engine view := rfl

theorem step_previous (later : 1 < view.currentPage) :
    step engine view .previous = turnedTo engine (view.currentPage - 1) view := if_pos later

theorem step_next (settled : Settled engine view) (more : view.currentPage < pagesOf engine view) :
    step engine view .next = turnedTo engine (view.currentPage + 1) view := by
  rw [pagesOf, ← settled.filtered] at more
  exact if_pos more

theorem step_previous_or (engine : Engine) (view : TableView) :
    (1 < view.currentPage ∧ step engine view .previous = turnedTo engine (view.currentPage - 1) view) ∨
      step engine view .previous = view := by
  by_cases later : 1 < view.currentPage
  · exact Or.inl ⟨later, step_previous later⟩
  · exact Or.inr (if_neg later)

theorem step_next_or (settled : Settled engine view) :
    (view.currentPage < pagesOf engine view ∧ step engine view .next = turnedTo engine (view.currentPage + 1) view) ∨
      step engine view .next = view := by
  by_cases more : view.currentPage < pagesOf engine view
  · exact Or.inl ⟨more, step_next settled more⟩
  · rw [pagesOf, ← settled.filtered] at more
    exact Or.inr (if_neg more)

theorem settled_step (settled : Settled engine view) (event : TableEvent) :
    Settled engine (step engine view event) := by
  cases event with
  | header field => exact settled_renderTable (Nat.le_refl 1)
  | previous =>
    rcases step_previous_or engine view with ⟨later, turned⟩ | same
    · rw [turned]
      exact settled_renderTable (Nat.le_sub_one_of_lt later)
    · rwa [same]
  | next =>
    rcases step_next_or settled with ⟨-, turned⟩ | same
    · rw [turned]
      exact settled_renderTable (Nat.le_add_left 1 _)
    · rwa [same]
  | input search => exact settled_renderTable (Nat.le_refl 1)
  | refresh data => exact settled_renderTable settled.first

/-! ### Stepping through the pages -/

variable (engine) in
def turnBack : Nat → TableView → TableView
  | 0, view => view
  | n + 1, view => turnBack n (step engine view .previous)

variable (engine) in
def walk : Nat → TableView → List TableRow
  | 0, view => view.rendered.rows
  | n + 1, view => view.rendered.rows ++ walk n (step engine view .next)

variable (engine) in
def stepThrough (view : TableView) : List TableRow :=
  let first := turnBack engine (view.currentPage - 1) view
  walk engine (pageCount rowsPerPage first.filteredData.length - 1) first

theorem turnBack_first {n : Nat} (settled : Settled engine view) (open_ : view.currentPage = n + 1) :
    Settled engine (turnBack engine n view) ∧ (turnBack engine n view).currentPage = 1 ∧
      ordered engine (turnBack engine n view) = ordered engine view := by
  induction n generalizing view with
  | zero => exact ⟨settled, open_, rfl⟩
  | succ n ih =>
    have turned : step engine view .previous = turnedTo engine (n + 1) view := by
      rw [step_previous (by omega), open_, Nat.add_sub_cancel]
    have kept := settled_step settled .previous
    rw [turnBack, turned]
    rw [turned] at kept
    exact ih kept rfl

theorem walk_eq {n : Nat} (settled : Settled engine view)
    (within : view.currentPage + n ≤ max 1 (pagesOf engine view)) :
    walk engine n view = pages rowsPerPage (ordered engine view) (view.currentPage - 1) (n + 1) := by
  induction n generalizing view with
  | zero =>
    rw [pages_one]
    exact settled.rows
  | succ n ih =>
    have first := settled.first
    have turned := step_next settled (by omega)
    have kept := settled_step settled .next
    rw [turned] at kept
    have rest := ih kept (by change view.currentPage + 1 + n ≤ max 1 (pagesOf engine view); omega)
    rw [turnedTo_currentPage, ordered_turnedTo, Nat.add_sub_cancel] at rest
    rw [walk, turned, rest, settled.rows, pages_succ (m := n + 1), Nat.sub_add_cancel first]

theorem stepThrough_eq (settled : Settled engine view) : stepThrough engine view = ordered engine view := by
  obtain ⟨settled', first, same⟩ := turnBack_first settled (Nat.sub_add_cancel settled.first).symm
  have total : pagesOf engine (turnBack engine (view.currentPage - 1) view) = pagesOf engine view := by
    rw [pagesOf, same, pagesOf]
  unfold stepThrough
  dsimp only
  rw [settled'.filtered, ← pagesOf, walk_eq settled' (by omega), first, total, same]
  exact pages_all (by decide) (by change pagesOf engine view ≤ _; omega)

/-! ### Over a run -/

variable (engine) in
/-- The page number is that of a page there is, a row is shown when one matches, and the pages from the first to
the last show every row that matches once. -/
structure ShowsPages (view : TableView) : Prop where
  first : 1 ≤ view.currentPage
  last : view.currentPage ≤ max 1 (pageCount rowsPerPage view.filteredData.length)
  filled : filterTableData engine view.tableData view.search ≠ [] → view.rendered.rows ≠ []
  matching : view.filteredData.Perm (filterTableData engine view.tableData view.search)
  walked : stepThrough engine view = view.filteredData

theorem showsPages_iff (settled : Settled engine view) :
    ShowsPages engine view ↔ view.currentPage ≤ max 1 (pagesOf engine view) := by
  have count : pageCount rowsPerPage view.filteredData.length = pagesOf engine view := by
    rw [settled.filtered, pagesOf]
  constructor
  · intro shows
    rw [← count]
    exact shows.last
  · intro within
    have first := settled.first
    refine ⟨first, by rwa [count], ?_, by rw [settled.filtered]; exact ordered_perm, ?_⟩
    · intro some_
      have filled : 0 < (ordered engine view).length := by
        rw [ordered_perm.length_eq]
        exact List.length_pos_iff.mpr some_
      have pages : 0 < pagesOf engine view := (lt_pageCount_iff (by decide)).mpr (by omega)
      rw [settled.rows, page_ne_nil_iff (by decide)]
      change view.currentPage - 1 < pagesOf engine view
      omega
    · rw [stepThrough_eq settled, settled.filtered]

variable (engine) in
/-- A refresh that finds another page than the first open brings more matching rows than the pages before it hold. -/
def Fits (view : TableView) : TableEvent → Prop
  | .refresh data =>
    view.currentPage = 1 ∨
      (view.currentPage - 1) * rowsPerPage < (filterTableData engine (tableRows engine data) view.search).length
  | _ => True

theorem showsPages_step_iff (settled : Settled engine view) (shows : ShowsPages engine view) (event : TableEvent) :
    ShowsPages engine (step engine view event) ↔ Fits engine view event := by
  have within := (showsPages_iff settled).mp shows
  have first := settled.first
  rw [showsPages_iff (settled_step settled event)]
  cases event with
  | header field => exact iff_of_true (Nat.le_max_left 1 _) trivial
  | input search => exact iff_of_true (Nat.le_max_left 1 _) trivial
  | previous =>
    refine iff_of_true ?_ trivial
    rcases step_previous_or engine view with ⟨later, turned⟩ | same
    · rw [turned]
      change view.currentPage - 1 ≤ max 1 (pagesOf engine view)
      omega
    · rwa [same]
  | next =>
    refine iff_of_true ?_ trivial
    rcases step_next_or settled with ⟨more, turned⟩ | same
    · rw [turned]
      change view.currentPage + 1 ≤ max 1 (pagesOf engine view)
      omega
    · rwa [same]
  | refresh data =>
    have count : (view.currentPage - 1) * rowsPerPage <
          (filterTableData engine (tableRows engine data) view.search).length ↔
        view.currentPage - 1 < pagesOf engine (step engine view (.refresh data)) := by
      rw [pagesOf, lt_pageCount_iff (by decide), ordered_perm.length_eq]
      exact Iff.rfl
    rw [Fits, count]
    change view.currentPage ≤ max 1 (pagesOf engine (step engine view (.refresh data))) ↔ _
    omega

end

/-- In any browser, whatever the search box starts with and in whatever order the events come: the table shows its
pages after every event exactly when every refresh of the run fits the page it finds open. -/
theorem table_pages_iff (engine : Engine) (search : String) (events : List TableEvent) :
    Along (step engine) (fun view event => ShowsPages engine (step engine view event)) (.loaded search) events ↔
      Along (step engine) (Fits engine) (.loaded search) events := by
  have settled := settled_loaded engine search
  have start : ShowsPages engine (.loaded search) := (showsPages_iff settled).mpr (Nat.le_max_left 1 _)
  apply along_iff (I := fun view => Settled engine view ∧ ShowsPages engine view)
  · intro view event holds shows
    exact ⟨settled_step holds.1 event, shows⟩
  · intro view event holds
    exact showsPages_step_iff holds.1 holds.2 event
  · exact ⟨settled, start⟩

/-- Sixteen peers, the second page, then a refresh without the last of them: "Page 2 of 1", and none of the fifteen
rows that match. -/
theorem shrunk_page_empty :
    let engine : Engine :=
      { number := Int.repr, decimal := fun _ => "", toFixed := fun _ _ => "", inherited := fun _ => none
        toLowerCase := String.toLower, parseFloat := fun _ => 0 }
    let idle := fun c : Char =>
      ({ peerId := String.ofList ['Q', 'm', c], publicName := none, version := none, state := "joining"
         shardLoading := false, model := none, span := none, throughput := some 0, usingRelay := none
         peerIpInfo := {} } : Peer)
    let document := fun ids : String => ({ peers := some (ids.toList.map idle), modelReports := [] } : Document)
    let events := [.refresh (document "ABCDEFGHIJKLMNOP"), .next, .refresh (document "ABCDEFGHIJKLMNO")]
    let view := events.foldl (step engine) (.loaded "")
    view.rendered.pageInfo = (2, 1) ∧ view.rendered.rows = [] ∧
      (filterTableData engine view.tableData view.search).length = 15 ∧
      ¬ Along (step engine) (fun view event => ShowsPages engine (step engine view event)) (.loaded "") events := by
  intro engine idle document events view
  refine ⟨by decide +kernel, by decide +kernel, by decide +kernel, ?_⟩
  intro all
  obtain ⟨-, -, shows, -⟩ := all
  exact absurd shows.last (by decide +kernel)

end KwaaiNetMap.Page
