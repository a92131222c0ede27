import KwaaiNetMap.Collections.StableSort
import KwaaiNetMap.Numeric.TotalOrder
import KwaaiNetMap.Page.Table
import Mathlib.Data.List.Lex
import Mathlib.Order.WithBot

/-!
The comparator of a column orders rows by a key in a linear order, and within a state by the first block, none
counting last. So over any run the table shows every row that matches, in the order asked for, rows the
comparator cannot tell apart in the order of the document (`table_order`).
-/

namespace KwaaiNetMap.Page
open Collections Numeric Systems

/-! ### Keys -/

theorem unitsBelow_iff (a b : List Nat) : unitsBelow a b = true ↔ a < b := by
  induction a generalizing b with
  | nil =>
    cases b with
    | nil => simp [unitsBelow]
    | cons y bs => simp [unitsBelow]
  | cons x as ih =>
    cases b with
    | nil => simp [unitsBelow]
    | cons y bs =>
      rw [unitsBelow, List.cons_lt_cons_iff]
      by_cases same : x = y
      · rw [if_pos same, ih]
        simp [same]
      · rw [if_neg same, decide_eq_true_eq]
        simp [same]

def blockRank (block : Option Int) : WithTop Int := block.map asDouble

theorem blockDifference_nonpos (a b : Option Int) : blockDifference a b ≤ 0 ↔ blockRank a ≤ blockRank b := by
  cases a with
  | none =>
    cases b with
    | none => simp [blockDifference]
    | some b =>
      refine iff_of_false (by simp [blockDifference]) ?_
      exact not_le_of_gt (WithTop.coe_lt_top (asDouble b))
  | some a =>
    cases b with
    | none =>
      refine iff_of_true (by simp [blockDifference]) ?_
      exact le_top
    | some b =>
      refine Iff.trans ?_ WithTop.coe_le_coe.symm
      simp [blockDifference]

def SortDirection.before {κ : Type*} [LT κ] : SortDirection → κ → κ → Prop
  | .asc, a, b => a < b
  | .desc, a, b => b < a

section
variable (engine : Engine) (field : SortField)

/-- The comparator reads `key` off the rows, with a last word on the first block within a state. -/
def KeyedBy {κ : Type*} [LT κ] (rows : List TableRow) (key : TableRow → κ) : Prop :=
  ∀ a ∈ rows, ∀ b ∈ rows, below engine field a b = true ↔ key a < key b

end

section
variable {engine : Engine} {field : SortField} {direction : SortDirection} {rows : List TableRow}

theorem keyedBy_text (rows : List TableRow) (text : field ≠ .state) (text' : field ≠ .throughput) :
    KeyedBy engine field rows fun row => (row.get field).toList.flatMap codeUnits := by
  intro a _ b _
  rw [← unitsBelow_iff]
  cases field <;> first | exact Iff.rfl | exact absurd rfl text | exact absurd rfl text'

theorem keyedBy_state (rows : List TableRow) :
    KeyedBy engine .state rows fun row => indexOf stateRank row.state := by
  intro a _ b _
  exact decide_eq_true_iff

theorem keyedBy_throughput (finite : ∀ row ∈ rows, (parsedThroughput engine row.throughput).isFinite = true) :
    KeyedBy engine .throughput rows fun row => weight (parsedThroughput engine row.throughput) := by
  intro a here b there
  rw [← lt_iff_weight (finite a here) (finite b there)]
  exact decide_eq_true_iff

variable {κ : Type*} [LinearOrder κ] {key : TableRow → κ}

theorem compareRows_nonpos (keyed : KeyedBy engine field rows key) {a b : TableRow} (here : a ∈ rows)
    (there : b ∈ rows) :
    compareRows engine field direction a b ≤ 0 ↔
      direction.before (key a) (key b) ∨
        key a = key b ∧ (field = .state → blockRank a.blockStart ≤ blockRank b.blockStart) := by
  have ahead := keyed a here b there
  have behind := keyed b there a here
  unfold compareRows
  rcases lt_trichotomy (key a) (key b) with less | same | more
  · rw [if_pos (ahead.mpr less)]
    cases direction with
    | asc => exact iff_of_true (by decide) (Or.inl less)
    | desc =>
      refine iff_of_false (by decide) ?_
      rintro (greater | ⟨same, -⟩)
      · exact lt_asymm less greater
      · exact less.ne same
  · rw [if_neg fun less => (ahead.mp less).ne same, if_neg fun more => (behind.mp more).ne' same]
    have level : ¬ direction.before (key a) (key b) := by
      rw [same]
      cases direction <;> exact lt_irrefl (key b)
    rw [or_iff_right level, and_iff_right same]
    split
    · rename_i state
      rw [blockDifference_nonpos]
      exact ⟨fun first _ => first, fun first => first state⟩
    · rename_i other
      exact iff_of_true (Int.le_refl 0) fun state => absurd state other
  · rw [if_neg fun less => lt_asymm (ahead.mp less) more, if_pos (behind.mpr more)]
    cases direction with
    | asc =>
      refine iff_of_false (by decide) ?_
      rintro (less | ⟨same, -⟩)
      · exact lt_asymm less more
      · exact more.ne' same
    | desc => exact iff_of_true (by decide) (Or.inl more)

theorem before_trans {a b c : κ} (first : direction.before a b) (second : direction.before b c) :
    direction.before a c := by
  cases direction with
  | asc => exact lt_trans first second
  | desc => exact lt_trans second first

theorem before_total (direction : SortDirection) (a b : κ) : direction.before a b ∨ a = b ∨ direction.before b a := by
  cases direction with
  | asc => exact lt_trichotomy a b
  | desc =>
    rcases lt_trichotomy a b with less | same | more
    · exact Or.inr (Or.inr less)
    · exact Or.inr (Or.inl same)
    · exact Or.inl more

theorem compareRows_total (keyed : KeyedBy engine field rows key) :
    ∀ a ∈ rows, ∀ b ∈ rows,
      compareRows engine field direction a b ≤ 0 ∨ compareRows engine field direction b a ≤ 0 := by
  intro a here b there
  rw [compareRows_nonpos keyed here there, compareRows_nonpos keyed there here]
  rcases before_total direction (key a) (key b) with first | same | second
  · exact Or.inl (Or.inl first)
  · rcases le_total (blockRank a.blockStart) (blockRank b.blockStart) with low | high
    · exact Or.inl (Or.inr ⟨same, fun _ => low⟩)
    · exact Or.inr (Or.inr ⟨same.symm, fun _ => high⟩)
  · exact Or.inr (Or.inl second)

theorem compareRows_trans (keyed : KeyedBy engine field rows key) :
    ∀ a ∈ rows, ∀ b ∈ rows, ∀ c ∈ rows, compareRows engine field direction a b ≤ 0 →
      compareRows engine field direction b c ≤ 0 → compareRows engine field direction a c ≤ 0 := by
  intro a first b second c third
  rw [compareRows_nonpos keyed first second, compareRows_nonpos keyed second third,
    compareRows_nonpos keyed first third]
  rintro (ahead | ⟨level, low⟩) (ahead' | ⟨level', low'⟩)
  · exact Or.inl (before_trans ahead ahead')
  · exact Or.inl (level' ▸ ahead)
  · exact Or.inl (level.symm ▸ ahead')
  · exact Or.inr ⟨level.trans level', fun state => (low state).trans (low' state)⟩

end

/-! ### Sorting -/

def Tied (engine : Engine) (field : SortField) (direction : SortDirection) (a b : TableRow) : Prop :=
  compareRows engine field direction a b ≤ 0 ∧ compareRows engine field direction b a ≤ 0

instance (engine : Engine) (field : SortField) (direction : SortDirection) (a b : TableRow) :
    Decidable (Tied engine field direction a b) := inferInstanceAs (Decidable (_ ∧ _))

section
variable (engine : Engine) (field : SortField) (direction : SortDirection)

structure InOrder (rows shown : List TableRow) : Prop where
  perm : shown.Perm rows
  sorted : shown.Pairwise fun a b => compareRows engine field direction a b ≤ 0
  stable : ∀ row ∈ rows, shown.filter (Tied engine field direction row) = rows.filter (Tied engine field direction row)

variable {engine field} {rows : List TableRow}

theorem inOrder_of_keyed {κ : Type*} [LinearOrder κ] {key : TableRow → κ} (keyed : KeyedBy engine field rows key) :
    InOrder engine field direction rows (sortTableData engine rows field direction) where
  perm := sortTableData_perm engine rows field direction
  sorted := insertionSort_sorted (compareRows_total keyed) (compareRows_trans keyed)
  stable := by
    intro row member
    refine filter_insertionSort fun a here b there tied tied' => ?_
    exact compareRows_trans keyed a here row member b there (of_decide_eq_true tied).2 (of_decide_eq_true tied').1

theorem sortTableData_inOrder
    (finite : field = .throughput → ∀ row ∈ rows, (parsedThroughput engine row.throughput).isFinite = true) :
    InOrder engine field direction rows (sortTableData engine rows field direction) := by
  by_cases throughput : field = .throughput
  · subst throughput
    exact inOrder_of_keyed direction (keyedBy_throughput (finite rfl))
  by_cases state : field = .state
  · subst state
    exact inOrder_of_keyed direction (keyedBy_state rows)
  · exact inOrder_of_keyed direction (keyedBy_text rows state throughput)

end

theorem filterTableData_subset (engine : Engine) (rows : List TableRow) (search : String) :
    filterTableData engine rows search ⊆ rows := by
  unfold filterTableData
  split
  · exact List.Subset.refl _
  · exact List.filter_sublist.subset

/-! ### What was asked for -/

structure Asked where
  document : Option Document
  search : String
  field : SortField
  direction : SortDirection
  page : Nat

namespace Asked

def first (search : String) : Asked := { document := none, search, field := .state, direction := .asc, page := 1 }

section
variable (engine : Engine)

def rows (asked : Asked) : List TableRow := (asked.document.map (tableRows engine)).getD []

def matching (asked : Asked) : List TableRow := filterTableData engine (asked.rows engine) asked.search

/-- A header clicked again turns its order round, a step past the last page is none, and only a header or a search
goes back to the first. -/
def next (asked : Asked) : TableEvent → Asked
  | .header field =>
    { asked with field, direction := if field = asked.field then asked.direction.toggled else .asc, page := 1 }
  | .previous => { asked with page := max 1 (asked.page - 1) }
  | .next =>
    { asked with page := if asked.page < pageCount rowsPerPage (asked.matching engine).length then asked.page + 1
                          else asked.page }
  | .input search => { asked with search, page := 1 }
  | .refresh data => { asked with document := some data }

end

end Asked

def TableEvent.refreshed : TableEvent → Option Document
  | .refresh data => some data
  | _ => none

def TableEvent.typed : TableEvent → Option String
  | .input search => some search
  | _ => none

def TableEvent.clicked : TableEvent → Option SortField
  | .header field => some field
  | _ => none

def lastOf {α : Type} (said : TableEvent → Option α) (events : List TableEvent) : Option α :=
  (events.filterMap said).getLast?

theorem lastOf_append {α : Type} (said : TableEvent → Option α) (events : List TableEvent) (event : TableEvent) :
    lastOf said (events ++ [event]) = (said event).or (lastOf said events) := by
  rw [lastOf, List.filterMap_append, List.getLast?_append]
  cases here : said event <;> simp [here, lastOf]

theorem asked_last (engine : Engine) (search : String) (events : List TableEvent) :
    let asked := events.foldl (Asked.next engine) (.first search)
    asked.document = lastOf TableEvent.refreshed events ∧
      asked.search = (lastOf TableEvent.typed events).getD search ∧
      asked.field = (lastOf TableEvent.clicked events).getD .state := by
  induction events using List.reverseRecOn with
  | nil => exact ⟨rfl, rfl, rfl⟩
  | append_singleton events event ih =>
    obtain ⟨document, typed, field⟩ := ih
    dsimp only
    rw [List.foldl_append, List.foldl_cons, List.foldl_nil, lastOf_append, lastOf_append, lastOf_append]
    cases event <;> exact ⟨by simp [Asked.next, TableEvent.refreshed, document],
      by simp [Asked.next, TableEvent.typed, typed], by simp [Asked.next, TableEvent.clicked, field]⟩

structure Follows (engine : Engine) (asked : Asked) (view : TableView) : Prop where
  rows : view.tableData = asked.rows engine
  search : view.search = asked.search
  field : view.sortField = asked.field
  direction : view.sortDirection = asked.direction
  page : view.currentPage = asked.page

section
variable {engine : Engine} {asked : Asked} {view : TableView}

theorem Follows.pages (follows : Follows engine asked view) :
    pagesOf engine view = pageCount rowsPerPage (asked.matching engine).length := by
  rw [pagesOf, ordered_perm.length_eq, follows.rows, follows.search, Asked.matching]

theorem follows_step (settled : Settled engine view) (follows : Follows engine asked view) (event : TableEvent) :
    Follows engine (asked.next engine event) (step engine view event) := by
  have standing := follows
  obtain ⟨rows, search, field, direction, page⟩ := standing
  cases event with
  | header clicked =>
    rw [Asked.next, ← field]
    by_cases same : clicked = view.sortField
    · simp only [step, if_pos same]
      exact ⟨rows, search, same.symm, by rw [← direction]; rfl, rfl⟩
    · simp only [step, if_neg same]
      exact ⟨rows, search, rfl, rfl, rfl⟩
  | previous =>
    have first := settled.first
    by_cases later : 1 < view.currentPage
    · rw [step_previous later]
      refine ⟨rows, search, field, direction, ?_⟩
      show view.currentPage - 1 = max 1 (asked.page - 1)
      omega
    · rw [show step engine view .previous = view from if_neg later]
      refine ⟨rows, search, field, direction, ?_⟩
      show view.currentPage = max 1 (asked.page - 1)
      omega
  | next =>
    rw [Asked.next, ← follows.pages, ← page]
    by_cases more : view.currentPage < pagesOf engine view
    · rw [step_next settled more, if_pos more]
      exact ⟨rows, search, field, direction, rfl⟩
    · rw [if_neg more]
      rw [pagesOf, ← settled.filtered] at more
      rw [show step engine view .next = view from if_neg more]
      exact ⟨rows, search, field, direction, rfl⟩
  | input typed => exact ⟨rows, rfl, field, direction, rfl⟩
  | refresh data => exact ⟨rfl, search, field, direction, page⟩

end

theorem follows_run (engine : Engine) (search : String) (events : List TableEvent) :
    Settled engine (events.foldl (step engine) (.loaded search)) ∧
      Follows engine (events.foldl (Asked.next engine) (.first search))
        (events.foldl (step engine) (.loaded search)) := by
  induction events using List.reverseRecOn with
  | nil => exact ⟨settled_loaded engine search, ⟨rfl, rfl, rfl, rfl, rfl⟩⟩
  | append_singleton events event ih =>
    obtain ⟨settled, follows⟩ := ih
    simp only [List.foldl_append, List.foldl_cons, List.foldl_nil]
    exact ⟨settled_step settled event, follows_step settled follows event⟩

/-- Over any run the table pages through every row of the document that came last that matches what was typed last,
in the order the header clicked last asks for, ties in the order of the document, and shows the page asked for. -/
theorem table_order (engine : Engine) (search : String) (events : List TableEvent) :
    let view := events.foldl (step engine) (.loaded search)
    let asked := events.foldl (Asked.next engine) (.first search)
    (asked.document = lastOf TableEvent.refreshed events ∧
        asked.search = (lastOf TableEvent.typed events).getD search ∧
        asked.field = (lastOf TableEvent.clicked events).getD .state) ∧
      ((asked.field = .throughput →
          ∀ row ∈ asked.rows engine, (parsedThroughput engine row.throughput).isFinite = true) →
        InOrder engine asked.field asked.direction (asked.matching engine) view.filteredData) ∧
      view.rendered.rows = page rowsPerPage view.filteredData (asked.page - 1) := by
  intro view asked
  obtain ⟨settled, follows⟩ := follows_run engine search events
  have within := filterTableData_subset engine (asked.rows engine) asked.search
  refine ⟨asked_last engine search events, fun finite => ?_, ?_⟩
  · rw [settled.filtered, ordered, follows.rows, follows.search, follows.field, follows.direction]
    exact sortTableData_inOrder _ fun throughput row member => finite throughput row (within member)
  · rw [settled.rows, settled.filtered, follows.page]

theorem table_order_rates :
    let engine : Engine :=
      { number := Int.repr, decimal := fun _ => "", inherited := fun _ => none
        toFixed := fun rate _ => if rate < 10.0 then "3.50" else "12.00"
        toLowerCase := String.toLower
        parseFloat := fun text => if text = "3.50" then 3.5 else 12.0 }
    let serving := fun (id : String) (throughput : Float) =>
      ({ peerId := id, publicName := none, version := none, state := "online", shardLoading := false, model := none
         span := none, throughput := some throughput, usingRelay := none, peerIpInfo := {} } : Peer)
    let data : Document := { peers := some [serving "QmA" 3.5, serving "QmB" 12.0], modelReports := [] }
    let view := [.refresh data, .header .throughput, .header .throughput].foldl (step engine) (.loaded "")
    InOrder engine .throughput .desc (tableRows engine data) view.filteredData ∧
      view.rendered.rows.map (·.peerId) = ["QmB", "QmA"] := by
  intro engine serving data view
  obtain ⟨-, ordered, -⟩ := table_order engine "" [.refresh data, .header .throughput, .header .throughput]
  exact ⟨ordered fun _ => by decide +kernel, by decide +kernel⟩

end KwaaiNetMap.Page
