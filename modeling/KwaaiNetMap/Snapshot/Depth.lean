import KwaaiNetMap.Snapshot.Json

/-!
Only the capability maps of a document nest deeper than its types do. So a reader comes to the bottom of a document
exactly when no record and no peer has a map that is deeper than what is left where it stands (`within_toJson`).
-/

namespace KwaaiNetMap
open Collections

/-! ### Arrays and objects -/

section
variable {depth : Nat}

theorem within_array (items : List Json) :
    (Json.array items).within depth = true ↔ 1 < depth ∧ ∀ j ∈ items, j.within (depth - 1) = true := by
  have walk : withinItems items (depth - 1) = true ↔ ∀ j ∈ items, j.within (depth - 1) = true := by
    induction items with
    | nil => simp [withinItems]
    | cons item rest ih => rw [withinItems, Bool.and_eq_true, ih, List.forall_mem_cons]
  rw [Json.within, Bool.and_eq_true, decide_eq_true_eq, walk]

theorem within_object (fields : List (String × Json)) :
    (Json.object fields).within depth = true ↔ 1 < depth ∧ ∀ f ∈ fields, f.2.within (depth - 1) = true := by
  have walk : withinFields fields (depth - 1) = true ↔ ∀ f ∈ fields, f.2.within (depth - 1) = true := by
    induction fields with
    | nil => simp [withinFields]
    | cons field rest ih => rw [withinFields, Bool.and_eq_true, ih, List.forall_mem_cons]
  rw [Json.within, Bool.and_eq_true, decide_eq_true_eq, walk]

end

mutual

theorem within_carried (text : WireText) : ∀ (j : Json) (depth : Nat), (text.carried j).within depth = j.within depth
  | .null, _ => rfl
  | .bool _, _ => rfl
  | .int _, _ => rfl
  | .float x, _ => by
    rw [WireText.carried]
    split <;> rfl
  | .string _, _ => rfl
  | .array items, depth => by
    rw [WireText.carried, Json.within, withinItems_carried text items, Json.within]
  | .object fields, depth => by
    rw [WireText.carried, Json.within, withinFields_carried text fields, Json.within]

theorem withinItems_carried (text : WireText) :
    ∀ (items : List Json) (depth : Nat), withinItems (text.carriedItems items) depth = withinItems items depth
  | [], _ => rfl
  | item :: rest, depth => by
    rw [WireText.carriedItems, withinItems, within_carried text item, withinItems_carried text rest, withinItems]

theorem withinFields_carried (text : WireText) :
    ∀ (fields : List (String × Json)) (depth : Nat),
      withinFields (text.carriedFields fields) depth = withinFields fields depth
  | [], _ => rfl
  | (_, j) :: rest, depth => by
    rw [WireText.carriedFields, withinFields, within_carried text j, withinFields_carried text rest, withinFields]

end

def FieldWithin (depth : Nat) (o : Option Json) : Prop := ∀ j, o = some j → j.within depth = true

section
variable {depth : Nat}

theorem within_present (fields : List (String × Option Json)) :
    (Json.object (present fields)).within (depth + 2) = true ↔ ∀ f ∈ fields, FieldWithin (depth + 1) f.2 := by
  rw [within_object]
  constructor
  · rintro ⟨-, all⟩ f member j held
    exact all (f.1, j) (List.mem_filterMap.mpr ⟨f, member, by rw [held]; rfl⟩)
  · intro all
    refine ⟨Nat.le_add_left 2 depth, fun f member => ?_⟩
    obtain ⟨g, listed, held⟩ := List.mem_filterMap.mp member
    obtain ⟨j, value, rfl⟩ := Option.map_eq_some_iff.mp held
    exact all g listed j value

@[simp] theorem within_items {α : Type} (write : α → Json) (l : List α) :
    (Json.array (l.map write)).within (depth + 2) = true ↔ ∀ a ∈ l, (write a).within (depth + 1) = true := by
  rw [within_array, List.forall_mem_map]
  exact and_iff_right (Nat.le_add_left 2 depth)

@[simp] theorem within_null : Json.null.within depth = true := rfl

@[simp] theorem within_bool (b : Bool) : (Json.bool b).within depth = true := rfl

@[simp] theorem within_int (n : Int) : (Json.int n).within depth = true := rfl

@[simp] theorem within_float (x : Numeric.F64) : (Json.float x).within depth = true := rfl

@[simp] theorem within_string (s : String) : (Json.string s).within depth = true := rfl

@[simp] theorem fieldWithin_none : FieldWithin depth none := fun _ held => nomatch held

@[simp] theorem fieldWithin_some (j : Json) : FieldWithin depth (some j) ↔ j.within depth = true := by
  simp [FieldWithin]

@[simp] theorem fieldWithin_orNull (o : Option Json) : FieldWithin depth (orNull o) ↔ FieldWithin depth o := by
  cases o <;> simp [orNull]

theorem fieldWithin_map {α : Type} {write : α → Json} (flat : ∀ a, (write a).within depth = true)
    (o : Option α) : FieldWithin depth (o.map write) := by
  cases o <;> simp [flat]

@[simp] theorem fieldWithin_string (o : Option String) : FieldWithin depth (o.map .string) :=
  fieldWithin_map within_string o

@[simp] theorem fieldWithin_bool (o : Option Bool) : FieldWithin depth (o.map .bool) := fieldWithin_map within_bool o

@[simp] theorem fieldWithin_int (o : Option Int) : FieldWithin depth (o.map .int) := fieldWithin_map within_int o

@[simp] theorem fieldWithin_float (o : Option Numeric.F64) : FieldWithin depth (o.map .float) :=
  fieldWithin_map within_float o

end

/-! ### Records -/

section
variable {depth : Nat}

theorem ServerInfo.within_toJson (info : ServerInfo) :
    info.toJson.within (depth + 2) = true ↔ FieldWithin (depth + 1) info.vpk := by
  rw [ServerInfo.toJson, within_present]
  simp [ServerInfo.fields]

@[simp] theorem Location.within_toJson (l : Location) : l.toJson.within (depth + 2) = true := by
  rw [Location.toJson, within_present]
  simp [Location.fields]

@[simp] theorem PeerIpInfo.within_toJson (info : PeerIpInfo) : info.toJson.within (depth + 3) = true := by
  rw [PeerIpInfo.toJson, within_present]
  simp [PeerIpInfo.fields]

theorem ServerRow.within_toJson (row : ServerRow) :
    row.toJson.within (depth + 4) = true ↔ FieldWithin (depth + 1) row.span.serverInfo.vpk := by
  have span : row.span.toJson.within (depth + 3) = true ↔ FieldWithin (depth + 1) row.span.serverInfo.vpk := by
    rw [PeerSpan.toJson, within_present]
    simp [PeerSpan.fields, ServerInfo.within_toJson]
  rw [ServerRow.toJson, within_present]
  simp [ServerRow.fields, span]

theorem ModelReport.within_toJson (report : ModelReport) :
    report.toJson.within (depth + 6) = true ↔
      ∀ row ∈ report.serverRows, FieldWithin (depth + 1) row.span.serverInfo.vpk := by
  rw [ModelReport.toJson, within_present]
  simp [ModelReport.fields, ServerRow.within_toJson]

@[simp] theorem Contributor.within_toJson (c : Contributor) : c.toJson.within (depth + 2) = true := by
  rw [Contributor.toJson, within_present]
  simp [Contributor.fields]

@[simp] theorem ReachabilityIssue.within_toJson (issue : ReachabilityIssue) :
    issue.toJson.within (depth + 2) = true := by
  rw [ReachabilityIssue.toJson, within_present]
  simp [ReachabilityIssue.fields]

@[simp] theorem BlockSpan.within_toJson (span : BlockSpan) : span.toJson.within (depth + 2) = true := by
  rw [BlockSpan.toJson, within_present]
  simp [BlockSpan.fields]

theorem PeerRow.within_toJson (row : PeerRow) :
    row.toJson.within (depth + 4) = true ↔ FieldWithin (depth + 3) row.vpk := by
  have span : FieldWithin (depth + 3) (row.span.map BlockSpan.toJson) := fieldWithin_map BlockSpan.within_toJson _
  rw [PeerRow.toJson, within_present]
  simp [PeerRow.fields, span]

end

/-- No capability map is deeper than its place allows: seven containers stand around that of a served record, three
around that of a peer. -/
structure Snapshot.Shallow (s : Snapshot) : Prop where
  modelReports : ∀ report ∈ s.modelReports, ∀ row ∈ report.serverRows, FieldWithin 121 row.span.serverInfo.vpk
  peers : ∀ row ∈ s.peers, FieldWithin 125 row.vpk

theorem Snapshot.within_toJson (text : WireText) (s : Snapshot) :
    (s.toJson text).within recursionLimit = true ↔ s.Shallow := by
  have since : FieldWithin 127 (s.staleSince.map fun t => .string (text.writeTime t)) :=
    fieldWithin_map (fun _ => within_string _) _
  have held : FieldWithin 127 (if isZero s.crawlsHeld then none else some (.int s.crawlsHeld.toNat)) := by
    split <;> simp
  have shallow : (∀ report ∈ s.modelReports, report.toJson.within 126 = true) ∧
      (∀ row ∈ s.peers, row.toJson.within 126 = true) ↔ s.Shallow := by
    simp only [ModelReport.within_toJson, PeerRow.within_toJson]
    exact ⟨fun both => ⟨both.1, both.2⟩, fun shallow => ⟨shallow.modelReports, shallow.peers⟩⟩
  rw [Snapshot.toJson, recursionLimit, within_present, ← shallow]
  simp [Snapshot.fields, since, held]

end KwaaiNetMap
