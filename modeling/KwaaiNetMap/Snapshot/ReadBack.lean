import KwaaiNetMap.Snapshot.Depth

/-!
What comes back of each type from its text, and so exactly which documents come back whole
(`readBack_iff`): those whose floats are finite and survive their decimals, and in which no capability map
is `null` or too deep for a reader. A record's own id is never written.
-/

namespace KwaaiNetMap
open Collections Numeric

/-! ### What comes back whole -/

def ServerInfo.unnamed (info : ServerInfo) : ServerInfo := { info with peerId := none }

def PeerSpan.unnamed (span : PeerSpan) : PeerSpan := { span with serverInfo := span.serverInfo.unnamed }

def ServerRow.unnamed (row : ServerRow) : ServerRow := { row with span := row.span.unnamed }

def ModelReport.unnamed (report : ModelReport) : ModelReport :=
  { report with serverRows := report.serverRows.map ServerRow.unnamed }

def Snapshot.unnamed (s : Snapshot) : Snapshot :=
  { s with modelReports := s.modelReports.map ModelReport.unnamed }

section
variable (text : WireText)

def WireText.Restores (x : F64) : Prop := x.isFinite = true ∧ text.restored x = x

def WireText.KeepsVpk (vpk : Option Json) : Prop := ∀ j, vpk = some j → j ≠ .null ∧ text.carried j = j

def InUsize (n : Nat) : Prop := n < 2 ^ 64

structure ServerInfo.Plain (info : ServerInfo) : Prop where
  throughput : text.Restores info.throughput
  startBlock : InI64 info.startBlock
  endBlock : InI64 info.endBlock
  networkRps : ∀ x, info.networkRps = some x → text.Restores x
  forwardRps : ∀ x, info.forwardRps = some x → text.Restores x
  inferenceRps : ∀ x, info.inferenceRps = some x → text.Restores x
  cacheTokensLeft : ∀ n, info.cacheTokensLeft = some n → InI64 n
  vpk : text.KeepsVpk info.vpk
  trustAttestations : InUsize info.trustAttestations

structure Location.Plain (l : Location) : Prop where
  lat : text.Restores l.lat
  lon : text.Restores l.lon

structure PeerSpan.Plain (span : PeerSpan) : Prop where
  start : InI64 span.start
  stop : InI64 span.stop
  serverInfo : span.serverInfo.Plain text

structure ServerRow.Plain (row : ServerRow) : Prop where
  location : row.peerIpInfo.location.Plain text
  span : row.span.Plain text

structure ModelReport.Plain (report : ModelReport) : Prop where
  numBlocks : InI64 report.numBlocks
  serverRows : ∀ row ∈ report.serverRows, row.Plain text

structure Contributor.Plain (c : Contributor) : Prop where
  throughput : text.Restores c.throughput
  blocks : InI64 c.blocks

structure BlockSpan.Plain (span : BlockSpan) : Prop where
  start : InI64 span.start
  stop : InI64 span.stop

structure PeerRow.Plain (row : PeerRow) : Prop where
  span : ∀ span, row.span = some span → span.Plain
  throughput : text.Restores row.throughput
  vpk : text.KeepsVpk row.vpk
  trustAttestations : InUsize row.trustAttestations
  location : row.peerIpInfo.location.Plain text

/-- Every integer of the document is in its machine range, every float is finite and survives its
decimals, and no capability map is `null`. -/
structure Snapshot.Plain (s : Snapshot) : Prop where
  modelReports : ∀ report ∈ s.modelReports, report.Plain text
  numPeers : InUsize s.numPeers
  numBlocksCovered : InUsize s.numBlocksCovered
  topContributors : ∀ c ∈ s.topContributors, c.Plain text
  updatePeriod : InUsize s.updatePeriod
  updateDuration : text.Restores s.updateDuration
  peers : ∀ row ∈ s.peers, row.Plain text

end

/-! ### Objects -/

section
variable {text : WireText}

theorem WireText.carried_array (items : List Json) :
    text.carried (.array items) = .array (items.map text.carried) := by
  have walk : text.carriedItems items = items.map text.carried := by
    induction items with
    | nil => rfl
    | cons item rest ih => rw [WireText.carriedItems, ih, List.map_cons]
  rw [WireText.carried, walk]

def WireText.returned (text : WireText) (fields : List (String × Option Json)) : List (String × Json) :=
  present (fields.map fun f => (f.1, f.2.map text.carried))

theorem WireText.carried_object (fields : List (String × Option Json)) :
    text.carried (.object (present fields)) = .object (text.returned fields) := by
  have walk (fields : List (String × Json)) :
      text.carriedFields fields = fields.map fun f => (f.1, text.carried f.2) := by
    induction fields with
    | nil => rfl
    | cons field rest ih => rw [WireText.carriedFields, ih, List.map_cons]
  rw [WireText.carried, walk, map_present, WireText.returned]

theorem member_returned {fields : List (String × Option Json)} (nodup : (fields.map Prod.fst).Nodup)
    {name : String} {o : Option Json} (held : fields.lookup name = some o) :
    member (text.returned fields) name = some (o.map text.carried) := by
  have names : (fields.map fun f => (f.1, f.2.map text.carried)).map Prod.fst = fields.map Prod.fst := by
    rw [List.map_map]
    rfl
  have looked := lookup_map_values (fun (_ : String) (o : Option Json) => o.map text.carried) fields name
  rw [WireText.returned, member_present (names ▸ nodup), looked, held]
  rfl

/-! ### Values -/

theorem readF64_carried (x : F64) : readF64 (text.carried (.float x)) = some x ↔ text.Restores x := by
  rw [WireText.carried, WireText.Restores]
  split
  · rename_i finite
    simp [readF64, finite]
  · rename_i infinite
    simp [readF64, infinite]

theorem readI64_carried (n : Int) : readI64 (text.carried (.int n)) = some n ↔ InI64 n := by
  simp [WireText.carried, readI64]

theorem readUsize_carried (n : Nat) : readUsize (text.carried (.int n)) = some n ↔ InUsize n := by
  have bound : (n : Int) < 2 ^ 64 ↔ n < 2 ^ 64 := by omega
  rw [WireText.carried, readUsize, InUsize, ← bound]
  simp

theorem readList_carried {α : Type} (write : α → Json) (read : Json → Option α) (back : α → α) (l : List α) :
    readList read (text.carried (.array (l.map write))) = some (l.map back) ↔
      ∀ a ∈ l, read (text.carried (write a)) = some (back a) := by
  rw [WireText.carried_array, List.map_map, readList]
  exact mapM_map_eq_some_iff _ read back l

theorem readList_string (l : List String) :
    readList readString (text.carried (.array (l.map .string))) = some l := by
  have back : readList readString (text.carried (.array (l.map .string))) = some (l.map id) :=
    (readList_carried Json.string readString id l).mpr fun _ _ => rfl
  rwa [List.map_id] at back

theorem readOption_orNull {α : Type} (read : Json → Option α) (o : Option Json) :
    readOption read ((orNull o).map text.carried) = readOption read (o.map text.carried) := by
  cases o <;> rfl

theorem readOption_string (o : Option String) :
    readOption readString ((o.map Json.string).map text.carried) = some o := by
  cases o <;> rfl

theorem readOption_bool (o : Option Bool) :
    readOption readBool ((o.map Json.bool).map text.carried) = some o := by
  cases o <;> rfl

theorem readOption_float (o : Option F64) :
    readOption readF64 ((o.map Json.float).map text.carried) = some o ↔
      ∀ x, o = some x → text.Restores x := by
  cases o with
  | none => simp [readOption]
  | some x =>
    simp only [Option.map_some, WireText.carried, WireText.Restores, Option.some.injEq, forall_eq']
    split
    · rename_i finite
      simp [readOption, readF64, finite]
    · rename_i infinite
      simp [readOption, infinite]

theorem readOption_int (o : Option Int) :
    readOption readI64 ((o.map Json.int).map text.carried) = some o ↔ ∀ n, o = some n → InI64 n := by
  cases o with
  | none => simp [readOption]
  | some n => simp [readOption, WireText.carried, readI64]

theorem readOption_vpk (o : Option Json) :
    readOption some (o.map text.carried) = some o ↔ text.KeepsVpk o := by
  unfold WireText.KeepsVpk
  cases o with
  | none => simp [readOption]
  | some j =>
    simp only [Option.map_some, Option.some.injEq, forall_eq']
    cases back : text.carried j with
    | null => cases j <;> simp [readOption]
    | bool _ | int _ | float _ | string _ | array _ | object _ => cases j <;> simp [readOption]

/-! ### Fields -/

section
variable {fields : List (String × Option Json)} (nodup : (fields.map Prod.fst).Nodup) {name : String}
include nodup

theorem required_returned {α : Type} {read : Json → Option α} {j : Json}
    (held : fields.lookup name = some (some j)) :
    required (text.returned fields) name read = read (text.carried j) := by
  rw [required, member_returned nodup held]
  rfl

theorem defaulted_returned {α : Type} {read : Json → Option α} {j : Json}
    (held : fields.lookup name = some (some j)) (missing : α) :
    defaulted (text.returned fields) name read missing = read (text.carried j) := by
  rw [defaulted, member_returned nodup held]
  rfl

theorem defaulted_missing {α : Type} {read : Json → Option α} (left : fields.lookup name = some none)
    (missing : α) : defaulted (text.returned fields) name read missing = some missing := by
  rw [defaulted, member_returned nodup left]
  rfl

theorem optional_returned {α : Type} {read : Json → Option α} {o : Option Json}
    (held : fields.lookup name = some o) :
    optional (text.returned fields) name read = readOption read (o.map text.carried) := by
  rw [optional, member_returned nodup held]
  rfl

theorem required_string {s : String} (held : fields.lookup name = some (some (.string s))) :
    required (text.returned fields) name readString = some s := required_returned nodup held

theorem required_bool {b : Bool} (held : fields.lookup name = some (some (.bool b))) :
    required (text.returned fields) name readBool = some b := required_returned nodup held

theorem required_float {x : F64} (held : fields.lookup name = some (some (.float x))) :
    required (text.returned fields) name readF64 = some x ↔ text.Restores x := by
  rw [required_returned nodup held, readF64_carried]

theorem required_int {n : Int} (held : fields.lookup name = some (some (.int n))) :
    required (text.returned fields) name readI64 = some n ↔ InI64 n := by
  rw [required_returned nodup held, readI64_carried]

theorem required_size {n : Nat} (held : fields.lookup name = some (some (.int n))) :
    required (text.returned fields) name readUsize = some n ↔ InUsize n := by
  rw [required_returned nodup held, readUsize_carried]

theorem defaulted_size {n missing : Nat} (held : fields.lookup name = some (some (.int n))) :
    defaulted (text.returned fields) name readUsize missing = some n ↔ InUsize n := by
  rw [defaulted_returned nodup held, readUsize_carried]

theorem defaulted_string {s missing : String} (held : fields.lookup name = some (some (.string s))) :
    defaulted (text.returned fields) name readString missing = some s := defaulted_returned nodup held missing

theorem defaulted_float {x missing : F64} (held : fields.lookup name = some (some (.float x))) :
    defaulted (text.returned fields) name readF64 missing = some x ↔ text.Restores x := by
  rw [defaulted_returned nodup held, readF64_carried]

theorem required_nested {α : Type} {read : Json → Option α} {j : Json} {a : α} {P : Prop}
    (each : read (text.carried j) = some a ↔ P) (held : fields.lookup name = some (some j)) :
    required (text.returned fields) name read = some a ↔ P := by
  rw [required_returned nodup held, each]

theorem required_list {α : Type} {write : α → Json} {read : Json → Option α} {back : α → α} {P : α → Prop}
    {l : List α} (each : ∀ a, read (text.carried (write a)) = some (back a) ↔ P a)
    (held : fields.lookup name = some (some (.array (l.map write)))) :
    required (text.returned fields) name (readList read) = some (l.map back) ↔ ∀ a ∈ l, P a := by
  rw [required_returned nodup held, readList_carried]
  simp only [each]

theorem optional_string {o : Option String} (held : fields.lookup name = some (o.map .string)) :
    optional (text.returned fields) name readString = some o := by
  rw [optional_returned nodup held, readOption_string]

theorem optional_bool {o : Option Bool} (held : fields.lookup name = some (o.map .bool)) :
    optional (text.returned fields) name readBool = some o := by
  rw [optional_returned nodup held, readOption_bool]

theorem optional_float {o : Option F64} (held : fields.lookup name = some (o.map .float)) :
    optional (text.returned fields) name readF64 = some o ↔ ∀ x, o = some x → text.Restores x := by
  rw [optional_returned nodup held, readOption_float]

theorem optional_int {o : Option Int} (held : fields.lookup name = some (o.map .int)) :
    optional (text.returned fields) name readI64 = some o ↔ ∀ n, o = some n → InI64 n := by
  rw [optional_returned nodup held, readOption_int]

theorem optional_vpk {o : Option Json} (held : fields.lookup name = some o) :
    optional (text.returned fields) name some = some o ↔ text.KeepsVpk o := by
  rw [optional_returned nodup held, readOption_vpk]

theorem nullable_string {o : Option String} (held : fields.lookup name = some (orNull (o.map .string))) :
    optional (text.returned fields) name readString = some o := by
  rw [optional_returned nodup held, readOption_orNull, readOption_string]

theorem nullable_bool {o : Option Bool} (held : fields.lookup name = some (orNull (o.map .bool))) :
    optional (text.returned fields) name readBool = some o := by
  rw [optional_returned nodup held, readOption_orNull, readOption_bool]

theorem nullable_vpk {o : Option Json} (held : fields.lookup name = some (orNull o)) :
    optional (text.returned fields) name some = some o ↔ text.KeepsVpk o := by
  rw [optional_returned nodup held, readOption_orNull, readOption_vpk]

end

/-! ### Records -/

theorem read_field {α β : Type} {o : Option α} {a : α} {rest : α → Option β} {b : β} (read : o = some a)
    (done : rest a = some b) : o.bind rest = some b := by
  rw [read, Option.bind_some, done]

theorem ServerInfo.ofJson_carried (info : ServerInfo) :
    ServerInfo.ofJson (text.carried info.toJson) = some info.unnamed ↔ info.Plain text := by
  have nodup : (info.fields.map Prod.fst).Nodup := by simp [ServerInfo.fields]
  rw [ServerInfo.toJson, WireText.carried_object, ServerInfo.ofJson, Json.asFields, Option.bind_some,
    ServerInfo.ofFields]
  constructor
  · intro back
    obtain ⟨_, -, back⟩ := Option.bind_eq_some_iff.mp back
    obtain ⟨_, throughput, back⟩ := Option.bind_eq_some_iff.mp back
    obtain ⟨_, startBlock, back⟩ := Option.bind_eq_some_iff.mp back
    obtain ⟨_, endBlock, back⟩ := Option.bind_eq_some_iff.mp back
    iterate 2 obtain ⟨_, -, back⟩ := Option.bind_eq_some_iff.mp back
    obtain ⟨_, networkRps, back⟩ := Option.bind_eq_some_iff.mp back
    obtain ⟨_, forwardRps, back⟩ := Option.bind_eq_some_iff.mp back
    obtain ⟨_, inferenceRps, back⟩ := Option.bind_eq_some_iff.mp back
    iterate 3 obtain ⟨_, -, back⟩ := Option.bind_eq_some_iff.mp back
    obtain ⟨_, cacheTokensLeft, back⟩ := Option.bind_eq_some_iff.mp back
    obtain ⟨_, -, back⟩ := Option.bind_eq_some_iff.mp back
    obtain ⟨_, vpk, back⟩ := Option.bind_eq_some_iff.mp back
    obtain ⟨_, trustAttestations, back⟩ := Option.bind_eq_some_iff.mp back
    cases back
    exact {
      throughput := (required_float nodup rfl).mp throughput
      startBlock := (required_int nodup rfl).mp startBlock
      endBlock := (required_int nodup rfl).mp endBlock
      networkRps := (optional_float nodup rfl).mp networkRps
      forwardRps := (optional_float nodup rfl).mp forwardRps
      inferenceRps := (optional_float nodup rfl).mp inferenceRps
      cacheTokensLeft := (optional_int nodup rfl).mp cacheTokensLeft
      vpk := (optional_vpk nodup rfl).mp vpk
      trustAttestations := (defaulted_size nodup rfl).mp trustAttestations }
  · intro plain
    apply read_field (required_string nodup rfl)
    apply read_field ((required_float nodup rfl).mpr plain.throughput)
    apply read_field ((required_int nodup rfl).mpr plain.startBlock)
    apply read_field ((required_int nodup rfl).mpr plain.endBlock)
    iterate 2 apply read_field (optional_string nodup rfl)
    apply read_field ((optional_float nodup rfl).mpr plain.networkRps)
    apply read_field ((optional_float nodup rfl).mpr plain.forwardRps)
    apply read_field ((optional_float nodup rfl).mpr plain.inferenceRps)
    iterate 2 apply read_field (optional_string nodup rfl)
    apply read_field (optional_bool nodup rfl)
    apply read_field ((optional_int nodup rfl).mpr plain.cacheTokensLeft)
    apply read_field (optional_bool nodup rfl)
    apply read_field ((optional_vpk nodup rfl).mpr plain.vpk)
    apply read_field ((defaulted_size nodup rfl).mpr plain.trustAttestations)
    rfl

theorem Location.ofJson_carried (l : Location) :
    Location.ofJson (text.carried l.toJson) = some l ↔ l.Plain text := by
  have nodup : (l.fields.map Prod.fst).Nodup := by simp [Location.fields]
  rw [Location.toJson, WireText.carried_object, Location.ofJson, Json.asFields, Option.bind_some,
    Location.ofFields]
  constructor
  · intro back
    iterate 3 obtain ⟨_, -, back⟩ := Option.bind_eq_some_iff.mp back
    obtain ⟨_, lat, back⟩ := Option.bind_eq_some_iff.mp back
    obtain ⟨_, lon, back⟩ := Option.bind_eq_some_iff.mp back
    obtain ⟨_, -, back⟩ := Option.bind_eq_some_iff.mp back
    cases back
    exact { lat := (defaulted_float nodup rfl).mp lat, lon := (defaulted_float nodup rfl).mp lon }
  · intro plain
    apply read_field (required_string nodup rfl)
    iterate 2 apply read_field (defaulted_string nodup rfl)
    apply read_field ((defaulted_float nodup rfl).mpr plain.lat)
    apply read_field ((defaulted_float nodup rfl).mpr plain.lon)
    apply read_field (defaulted_string nodup rfl)
    rfl

theorem PeerIpInfo.ofJson_carried (info : PeerIpInfo) :
    PeerIpInfo.ofJson (text.carried info.toJson) = some info ↔ info.location.Plain text := by
  have nodup : (info.fields.map Prod.fst).Nodup := by simp [PeerIpInfo.fields]
  rw [PeerIpInfo.toJson, WireText.carried_object, PeerIpInfo.ofJson, Json.asFields, Option.bind_some,
    PeerIpInfo.ofFields]
  constructor
  · intro back
    obtain ⟨_, location, back⟩ := Option.bind_eq_some_iff.mp back
    iterate 2 obtain ⟨_, -, back⟩ := Option.bind_eq_some_iff.mp back
    cases back
    exact (required_nested nodup (Location.ofJson_carried _) rfl).mp location
  · intro plain
    apply read_field ((required_nested nodup (Location.ofJson_carried _) rfl).mpr plain)
    apply read_field ((required_returned nodup rfl).trans (readList_string info.multiaddrs))
    apply read_field (optional_string nodup rfl)
    rfl

theorem PeerSpan.ofJson_carried (span : PeerSpan) :
    PeerSpan.ofJson (text.carried span.toJson) = some span.unnamed ↔ span.Plain text := by
  have nodup : (span.fields.map Prod.fst).Nodup := by simp [PeerSpan.fields]
  rw [PeerSpan.toJson, WireText.carried_object, PeerSpan.ofJson, Json.asFields, Option.bind_some,
    PeerSpan.ofFields]
  constructor
  · intro back
    obtain ⟨_, -, back⟩ := Option.bind_eq_some_iff.mp back
    obtain ⟨_, start, back⟩ := Option.bind_eq_some_iff.mp back
    obtain ⟨_, stop, back⟩ := Option.bind_eq_some_iff.mp back
    obtain ⟨_, serverInfo, back⟩ := Option.bind_eq_some_iff.mp back
    cases back
    exact {
      start := (required_int nodup rfl).mp start
      stop := (required_int nodup rfl).mp stop
      serverInfo := (required_nested nodup (ServerInfo.ofJson_carried _) rfl).mp serverInfo }
  · intro plain
    apply read_field (required_string nodup rfl)
    apply read_field ((required_int nodup rfl).mpr plain.start)
    apply read_field ((required_int nodup rfl).mpr plain.stop)
    apply read_field ((required_nested nodup (ServerInfo.ofJson_carried _) rfl).mpr plain.serverInfo)
    rfl

theorem ServerRow.ofJson_carried (row : ServerRow) :
    ServerRow.ofJson (text.carried row.toJson) = some row.unnamed ↔ row.Plain text := by
  have nodup : (row.fields.map Prod.fst).Nodup := by simp [ServerRow.fields]
  rw [ServerRow.toJson, WireText.carried_object, ServerRow.ofJson, Json.asFields, Option.bind_some,
    ServerRow.ofFields]
  constructor
  · intro back
    iterate 4 obtain ⟨_, -, back⟩ := Option.bind_eq_some_iff.mp back
    obtain ⟨_, location, back⟩ := Option.bind_eq_some_iff.mp back
    obtain ⟨_, span, back⟩ := Option.bind_eq_some_iff.mp back
    cases back
    exact {
      location := (required_nested nodup (PeerIpInfo.ofJson_carried _) rfl).mp location
      span := (required_nested nodup (PeerSpan.ofJson_carried _) rfl).mp span }
  · intro plain
    iterate 2 apply read_field (required_string nodup rfl)
    apply read_field (required_bool nodup rfl)
    apply read_field (required_string nodup rfl)
    apply read_field ((required_nested nodup (PeerIpInfo.ofJson_carried _) rfl).mpr plain.location)
    apply read_field ((required_nested nodup (PeerSpan.ofJson_carried _) rfl).mpr plain.span)
    rfl

theorem ModelReport.ofJson_carried (report : ModelReport) :
    ModelReport.ofJson (text.carried report.toJson) = some report.unnamed ↔ report.Plain text := by
  have nodup : (report.fields.map Prod.fst).Nodup := by simp [ModelReport.fields]
  rw [ModelReport.toJson, WireText.carried_object, ModelReport.ofJson, Json.asFields, Option.bind_some,
    ModelReport.ofFields]
  constructor
  · intro back
    iterate 4 obtain ⟨_, -, back⟩ := Option.bind_eq_some_iff.mp back
    obtain ⟨_, numBlocks, back⟩ := Option.bind_eq_some_iff.mp back
    obtain ⟨_, -, back⟩ := Option.bind_eq_some_iff.mp back
    obtain ⟨_, serverRows, back⟩ := Option.bind_eq_some_iff.mp back
    cases back
    exact {
      numBlocks := (required_int nodup rfl).mp numBlocks
      serverRows := (required_list nodup ServerRow.ofJson_carried rfl).mp serverRows }
  · intro plain
    iterate 4 apply read_field (required_string nodup rfl)
    apply read_field ((required_int nodup rfl).mpr plain.numBlocks)
    apply read_field (required_string nodup rfl)
    apply read_field ((required_list nodup ServerRow.ofJson_carried rfl).mpr plain.serverRows)
    rfl

theorem Contributor.ofJson_carried (c : Contributor) :
    Contributor.ofJson (text.carried c.toJson) = some c ↔ c.Plain text := by
  have nodup : (c.fields.map Prod.fst).Nodup := by simp [Contributor.fields]
  rw [Contributor.toJson, WireText.carried_object, Contributor.ofJson, Json.asFields, Option.bind_some,
    Contributor.ofFields]
  constructor
  · intro back
    iterate 2 obtain ⟨_, -, back⟩ := Option.bind_eq_some_iff.mp back
    obtain ⟨_, throughput, back⟩ := Option.bind_eq_some_iff.mp back
    obtain ⟨_, blocks, back⟩ := Option.bind_eq_some_iff.mp back
    cases back
    exact {
      throughput := (required_float nodup rfl).mp throughput
      blocks := (required_int nodup rfl).mp blocks }
  · intro plain
    apply read_field (required_string nodup rfl)
    apply read_field (nullable_string nodup rfl)
    apply read_field ((required_float nodup rfl).mpr plain.throughput)
    apply read_field ((required_int nodup rfl).mpr plain.blocks)
    rfl

theorem ReachabilityIssue.ofJson_carried (issue : ReachabilityIssue) :
    ReachabilityIssue.ofJson (text.carried issue.toJson) = some issue := by
  have nodup : (issue.fields.map Prod.fst).Nodup := by simp [ReachabilityIssue.fields]
  rw [ReachabilityIssue.toJson, WireText.carried_object, ReachabilityIssue.ofJson, Json.asFields,
    Option.bind_some, ReachabilityIssue.ofFields]
  iterate 2 apply read_field (required_string nodup rfl)
  rfl

theorem BlockSpan.ofJson_carried (span : BlockSpan) :
    BlockSpan.ofJson (text.carried span.toJson) = some span ↔ span.Plain := by
  have nodup : (span.fields.map Prod.fst).Nodup := by simp [BlockSpan.fields]
  rw [BlockSpan.toJson, WireText.carried_object, BlockSpan.ofJson, Json.asFields, Option.bind_some,
    BlockSpan.ofFields]
  constructor
  · intro back
    obtain ⟨_, start, back⟩ := Option.bind_eq_some_iff.mp back
    obtain ⟨_, stop, back⟩ := Option.bind_eq_some_iff.mp back
    cases back
    exact { start := (required_int nodup rfl).mp start, stop := (required_int nodup rfl).mp stop }
  · intro plain
    apply read_field ((required_int nodup rfl).mpr plain.start)
    apply read_field ((required_int nodup rfl).mpr plain.stop)
    rfl

theorem nullable_span {fields : List (String × Option Json)} (nodup : (fields.map Prod.fst).Nodup)
    {name : String} {o : Option BlockSpan} (held : fields.lookup name = some (orNull (o.map BlockSpan.toJson))) :
    optional (text.returned fields) name BlockSpan.ofJson = some o ↔ ∀ span, o = some span → span.Plain := by
  rw [optional_returned nodup held, readOption_orNull]
  cases o with
  | none => simp [readOption]
  | some span =>
    have written : readOption BlockSpan.ofJson (some (text.carried span.toJson)) =
        (BlockSpan.ofJson (text.carried span.toJson)).map some := by
      rw [BlockSpan.toJson, WireText.carried_object]
      rfl
    have plain : BlockSpan.ofJson (text.carried span.toJson) = some span ↔ span.Plain :=
      BlockSpan.ofJson_carried span
    simp [written, plain]

theorem PeerRow.ofJson_carried (row : PeerRow) :
    PeerRow.ofJson (text.carried row.toJson) = some row ↔ row.Plain text := by
  have nodup : (row.fields.map Prod.fst).Nodup := by simp [PeerRow.fields]
  rw [PeerRow.toJson, WireText.carried_object, PeerRow.ofJson, Json.asFields, Option.bind_some,
    PeerRow.ofFields]
  constructor
  · intro back
    iterate 7 obtain ⟨_, -, back⟩ := Option.bind_eq_some_iff.mp back
    obtain ⟨_, span, back⟩ := Option.bind_eq_some_iff.mp back
    obtain ⟨_, throughput, back⟩ := Option.bind_eq_some_iff.mp back
    obtain ⟨_, -, back⟩ := Option.bind_eq_some_iff.mp back
    obtain ⟨_, vpk, back⟩ := Option.bind_eq_some_iff.mp back
    obtain ⟨_, trustAttestations, back⟩ := Option.bind_eq_some_iff.mp back
    obtain ⟨_, location, back⟩ := Option.bind_eq_some_iff.mp back
    iterate 2 obtain ⟨_, -, back⟩ := Option.bind_eq_some_iff.mp back
    cases back
    exact {
      span := (nullable_span nodup rfl).mp span
      throughput := (required_float nodup rfl).mp throughput
      vpk := (nullable_vpk nodup rfl).mp vpk
      trustAttestations := (required_size nodup rfl).mp trustAttestations
      location := (required_nested nodup (PeerIpInfo.ofJson_carried _) rfl).mp location }
  · intro plain
    iterate 2 apply read_field (required_string nodup rfl)
    iterate 2 apply read_field (nullable_string nodup rfl)
    apply read_field (required_string nodup rfl)
    apply read_field (required_bool nodup rfl)
    apply read_field (nullable_string nodup rfl)
    apply read_field ((nullable_span nodup rfl).mpr plain.span)
    apply read_field ((required_float nodup rfl).mpr plain.throughput)
    apply read_field (nullable_bool nodup rfl)
    apply read_field ((nullable_vpk nodup rfl).mpr plain.vpk)
    apply read_field ((required_size nodup rfl).mpr plain.trustAttestations)
    apply read_field ((required_nested nodup (PeerIpInfo.ofJson_carried _) rfl).mpr plain.location)
    iterate 2 apply read_field (required_bool nodup rfl)
    rfl

/-! ### The document -/

theorem readDateTime_carried (t : DateTime) :
    readDateTime text (text.carried (.string (text.writeTime t))) = some t := text.readTime_writeTime t

theorem readOption_time (o : Option DateTime) :
    readOption (readDateTime text) ((o.map fun t => Json.string (text.writeTime t)).map text.carried) = some o := by
  cases o with
  | none => rfl
  | some t => exact congrArg (Option.map some) (readDateTime_carried t)

theorem inU32_toNat (n : UInt32) : InU32 n.toNat :=
  ⟨Int.natCast_nonneg _, Int.ofNat_lt.mpr n.toNat_lt_size⟩

theorem readU32_carried {n : Int} (within : InU32 n) :
    readU32 (text.carried (.int n)) = some (UInt32.ofNat n.toNat) := by
  rw [WireText.carried, readU32, if_pos within]

theorem readU32_toNat (n : UInt32) : readU32 (text.carried (.int n.toNat)) = some n := by
  rw [readU32_carried (inU32_toNat n), Int.toNat_natCast, UInt32.ofNat_toNat]

theorem defaulted_held {fields : List (String × Option Json)} (nodup : (fields.map Prod.fst).Nodup)
    {name : String} {n : UInt32}
    (held : fields.lookup name = some (if isZero n then none else some (.int n.toNat))) :
    defaulted (text.returned fields) name readU32 0 = some n := by
  by_cases fresh : isZero n = true
  · have zero : n = 0 := eq_of_beq fresh
    rw [if_pos fresh] at held
    rw [defaulted_missing nodup held, zero]
  · rw [if_neg fresh] at held
    rw [defaulted_returned nodup held, readU32_toNat]

theorem readList_self {α : Type} {write : α → Json} {read : Json → Option α} {P : α → Prop} (l : List α)
    (each : ∀ a, read (text.carried (write a)) = some a ↔ P a) :
    readList read (text.carried (.array (l.map write))) = some l ↔ ∀ a ∈ l, P a := by
  have back : readList read (text.carried (.array (l.map write))) = some (l.map id) ↔ _ :=
    readList_carried write read id l
  rw [List.map_id] at back
  simp only [back, id_eq, each]

theorem ofJson_carried (s : Snapshot) :
    Snapshot.ofJson text (text.carried (s.toJson text)) = some s.unnamed ↔ s.Plain text := by
  have nodup : ((s.fields text).map Prod.fst).Nodup := by simp [Snapshot.fields]
  have contributors : required (text.returned (s.fields text)) "top_contributors"
      (readList Contributor.ofJson) = some s.topContributors ↔ ∀ c ∈ s.topContributors, c.Plain text := by
    rw [required_returned nodup rfl]
    exact readList_self _ Contributor.ofJson_carried
  have issues : required (text.returned (s.fields text)) "reachability_issues"
      (readList ReachabilityIssue.ofJson) = some s.reachabilityIssues := by
    rw [required_returned nodup rfl]
    exact (readList_self _ fun issue => iff_true_intro (ReachabilityIssue.ofJson_carried issue)).mpr
      fun _ _ => trivial
  have peers : defaulted (text.returned (s.fields text)) "peers" (readList PeerRow.ofJson) [] =
      some s.peers ↔ ∀ row ∈ s.peers, row.Plain text := by
    rw [defaulted_returned nodup rfl]
    exact readList_self _ PeerRow.ofJson_carried
  rw [Snapshot.toJson, WireText.carried_object, Snapshot.ofJson, Json.asFields,
    Option.bind_some, Snapshot.ofFields]
  constructor
  · intro back
    obtain ⟨_, -, back⟩ := Option.bind_eq_some_iff.mp back
    obtain ⟨_, modelReports, back⟩ := Option.bind_eq_some_iff.mp back
    obtain ⟨_, numPeers, back⟩ := Option.bind_eq_some_iff.mp back
    obtain ⟨_, numBlocksCovered, back⟩ := Option.bind_eq_some_iff.mp back
    obtain ⟨_, topContributors, back⟩ := Option.bind_eq_some_iff.mp back
    iterate 2 obtain ⟨_, -, back⟩ := Option.bind_eq_some_iff.mp back
    obtain ⟨_, updatePeriod, back⟩ := Option.bind_eq_some_iff.mp back
    obtain ⟨_, updateDuration, back⟩ := Option.bind_eq_some_iff.mp back
    iterate 2 obtain ⟨_, -, back⟩ := Option.bind_eq_some_iff.mp back
    obtain ⟨_, rows, back⟩ := Option.bind_eq_some_iff.mp back
    cases back
    exact {
      modelReports := (required_list nodup ModelReport.ofJson_carried rfl).mp modelReports
      numPeers := (required_size nodup rfl).mp numPeers
      numBlocksCovered := (required_size nodup rfl).mp numBlocksCovered
      topContributors := contributors.mp topContributors
      updatePeriod := (required_size nodup rfl).mp updatePeriod
      updateDuration := (required_float nodup rfl).mp updateDuration
      peers := peers.mp rows }
  · intro plain
    apply read_field ((required_returned nodup rfl).trans (readList_string s.bootstrapStates))
    apply read_field ((required_list nodup ModelReport.ofJson_carried rfl).mpr plain.modelReports)
    apply read_field ((required_size nodup rfl).mpr plain.numPeers)
    apply read_field ((required_size nodup rfl).mpr plain.numBlocksCovered)
    apply read_field (contributors.mpr plain.topContributors)
    apply read_field issues
    apply read_field ((required_returned nodup rfl).trans (readDateTime_carried s.lastUpdated))
    apply read_field ((required_size nodup rfl).mpr plain.updatePeriod)
    apply read_field ((required_float nodup rfl).mpr plain.updateDuration)
    apply read_field ((optional_returned nodup rfl).trans (readOption_time s.staleSince))
    apply read_field (defaulted_held nodup rfl)
    apply read_field (peers.mpr plain.peers)
    rfl

end

/-- Exactly which documents come back whole from their text. -/
theorem readBack_iff (text : WireText) (s : Snapshot) :
    s.readBack text = some s.unnamed ↔ s.Plain text ∧ s.Shallow := by
  rw [← s.within_toJson text, ← ofJson_carried, Snapshot.readBack, within_carried]
  split
  · rename_i reached
    exact (and_iff_left reached).symm
  · rename_i tooDeep
    exact iff_of_false (by simp) fun both => tooDeep both.2

end KwaaiNetMap
