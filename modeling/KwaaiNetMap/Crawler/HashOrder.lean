import KwaaiNetMap.Collections.Ranking
import KwaaiNetMap.Crawler.Rearranged

/-!
The contributors are the values of a hash map, sorted by throughput alone and cut to five, so their
iteration order shows wherever two of them tie and fewer than five are faster. `hash_order_free_iff` says
that this is all of it: a document is the same under every iteration order exactly when no two servers
tie at a place that is shown.
-/

namespace KwaaiNetMap
open Collections Numeric

/-! ### The throughput a server is ranked by -/

def faster (throughput : F64) (held : Option F64) : F64 :=
  match held with
  | none => throughput
  | some h => if throughput > h then throughput else h

section
variable (input : CrawlInput)

def CrawlInput.listedRows : List ServerRow := input.reports.flatMap (·.serverRows)

/-- The throughput a listed server is ranked by: the highest of its rows, as `>` finds it in the order
of the reports. -/
def CrawlInput.bestThroughput (id : String) : Option F64 :=
  (input.listedRows.filter fun row => decide (row.peerId = id)).foldl
    (fun held row => some (faster row.span.serverInfo.throughput held)) none

def CrawlInput.servers : List String := (input.listedRows.map (·.peerId)).dedup

def CrawlInput.fasterThan (throughput : F64) : Nat :=
  input.servers.countP fun id =>
    (input.bestThroughput id).any fun best => decide (totalOrderKey throughput < totalOrderKey best)

/-- No two servers tie at a place that is shown: whoever ties has five servers above. -/
def CrawlInput.ContributorsDecided : Prop :=
  ∀ a b f g, a ≠ b → input.bestThroughput a = some f → input.bestThroughput b = some g →
    totalOrderKey f = totalOrderKey g → 5 ≤ input.fasterThan f

def CrawlInput.Completes (overflowChecks : Bool) : Prop :=
  (∀ model ∈ input.models, ModelSliceable input model) ∧ (∀ id, input.HasRow id → Sliceable id) ∧
    (overflowChecks = true →
      ∀ model ∈ input.models, ∀ peer ∈ input.peersOf model,
        CountFits peer.2.info.startBlock peer.2.info.endBlock)

end

def Snapshot.undated (s : Snapshot) : Snapshot := { s with lastUpdated := 0 }

/-! ### The map of the best -/

theorem int64_lt_iff {a b : Int64} : a ≤ b ∧ ¬ b ≤ a ↔ a < b :=
  ⟨fun both => Int64.not_le.mp both.2, fun lt => ⟨Int64.le_of_lt lt, Int64.not_le.mpr lt⟩⟩

section
variable {overflowChecks : Bool}

def bestOf (overflowChecks : Bool) (rows : List ServerRow) (best : HashMap String Contributor) :
    Option (HashMap String Contributor) :=
  rows.foldlM (bestStep overflowChecks) best

def headOf (order : IterOrder) (best : HashMap String Contributor) : List Contributor :=
  (((order.iter best.entries).map Prod.snd).insertionSort throughputBefore).take 5

theorem topContributors_rows (order : IterOrder) (reports : List ModelReport) :
    topContributors overflowChecks order reports =
      (bestOf overflowChecks (reports.flatMap (·.serverRows)) ∅).map (headOf order) := by
  have flat (reports : List ModelReport) (best : HashMap String Contributor) :
      reports.foldlM (fun best report => report.serverRows.foldlM (bestStep overflowChecks) best) best =
        bestOf overflowChecks (reports.flatMap (·.serverRows)) best := by
    induction reports generalizing best with
    | nil => rfl
    | cons report reports ih =>
      rw [List.foldlM_cons, List.flatMap_cons, bestOf, List.foldlM_append]
      exact congrArg _ (funext ih)
  unfold topContributors
  rw [flat]
  cases bestOf overflowChecks (reports.flatMap (·.serverRows)) ∅ with
  | none => rfl
  | some best => rfl

theorem topContributors_eq (order : IterOrder) (input : CrawlInput) :
    topContributors overflowChecks order input.reports =
      (bestOf overflowChecks input.listedRows ∅).map (headOf order) :=
  topContributors_rows order input.reports

theorem contributor_row {row : ServerRow} {c : Contributor}
    (counted : contributor overflowChecks row = some c) :
    c.peerId = row.peerId ∧ c.throughput = row.span.serverInfo.throughput := by
  simp only [contributor, Option.bind_eq_bind, Option.bind_eq_some_iff] at counted
  obtain ⟨span, -, blocks, -, same⟩ := counted
  obtain rfl := Option.some.inj same
  exact ⟨rfl, rfl⟩

theorem higher_throughput (c : Contributor) (held : Option Contributor) :
    (higher c held).throughput = faster c.throughput (held.map (·.throughput)) := by
  cases held with
  | none => rfl
  | some h =>
    simp only [higher, faster, Option.map_some]
    split <;> rfl

def OwnKeys (best : HashMap String Contributor) : Prop := ∀ id c, best.get? id = some c → c.peerId = id

theorem get?_bestStep {best next : HashMap String Contributor} {row : ServerRow}
    (ran : bestStep overflowChecks best row = some next) :
    ∃ c, contributor overflowChecks row = some c ∧
      ∀ id, next.get? id = if id = row.peerId then some (higher c (best.get? row.peerId)) else best.get? id := by
  obtain ⟨c, counted, same⟩ := Option.bind_eq_some_iff.mp ran
  obtain rfl := Option.some.inj same
  exact ⟨c, counted, fun id => KeyedMap.get?_upsert best row.peerId (higher c) id⟩

theorem ownKeys_bestStep {best next : HashMap String Contributor} {row : ServerRow} (own : OwnKeys best)
    (ran : bestStep overflowChecks best row = some next) : OwnKeys next := by
  obtain ⟨c, counted, read⟩ := get?_bestStep ran
  intro id d found
  rw [read] at found
  split at found
  · rename_i here
    obtain rfl := Option.some.inj found
    subst here
    unfold higher
    cases held : best.get? row.peerId with
    | none => exact (contributor_row counted).1
    | some h =>
      dsimp only
      split
      · exact (contributor_row counted).1
      · exact own _ h held
  · exact own id d found

theorem bestOf_spec {rows : List ServerRow} {best done : HashMap String Contributor} (own : OwnKeys best)
    (ran : bestOf overflowChecks rows best = some done) :
    OwnKeys done ∧ ∀ id, (done.get? id).map (·.throughput) =
      (rows.filter fun row => decide (row.peerId = id)).foldl
        (fun held row => some (faster row.span.serverInfo.throughput held))
        ((best.get? id).map (·.throughput)) := by
  induction rows generalizing best with
  | nil =>
    obtain rfl := Option.some.inj ran
    exact ⟨own, fun id => rfl⟩
  | cons row rows ih =>
    obtain ⟨next, stepped, rest⟩ := Option.bind_eq_some_iff.mp ran
    obtain ⟨kept, read⟩ := ih (ownKeys_bestStep own stepped) rest
    refine ⟨kept, fun id => ?_⟩
    obtain ⟨c, counted, found⟩ := get?_bestStep stepped
    rw [read, found]
    by_cases here : row.peerId = id
    · subst here
      rw [if_pos rfl, List.filter_cons_of_pos (by simp), List.foldl_cons, Option.map_some,
        higher_throughput, (contributor_row counted).2]
    · rw [if_neg (Ne.symm here), List.filter_cons_of_neg (by simpa using here)]

section
variable {input : CrawlInput} {best : HashMap String Contributor}
  (ran : bestOf overflowChecks input.listedRows ∅ = some best)
include ran

theorem best_throughput (id : String) : (best.get? id).map (·.throughput) = input.bestThroughput id :=
  (bestOf_spec (fun _ _ found => by cases found) ran).2 id

theorem best_ownKeys : OwnKeys best := (bestOf_spec (fun _ _ found => by cases found) ran).1

theorem best_keys_perm : best.keys.Perm input.servers := by
  refine (List.perm_ext_iff_of_nodup best.nodup (List.nodup_dedup _)).mpr fun id => ?_
  have filled := foldl_some_isSome (fun row : ServerRow => faster row.span.serverInfo.throughput)
    (input.listedRows.filter fun row => decide (row.peerId = id)) none
  have held : (best.get? id).isSome = (input.bestThroughput id).isSome := by
    rw [← best_throughput ran id, Option.isSome_map]
  change id ∈ best.keys ↔ _
  rw [HashMap.mem_keys, held, CrawlInput.bestThroughput, filled, List.mem_dedup]
  simp [List.filter_eq_nil_iff]

theorem above_best (c : Contributor) :
    above throughputBefore (best.entries.map Prod.snd) c = input.fasterThan c.throughput := by
  unfold above CrawlInput.fasterThan
  rw [← (best_keys_perm ran).countP_eq, HashMap.keys, List.countP_map, List.countP_map]
  refine List.countP_congr fun e member => ?_
  have held : best.get? e.1 = some e.2 := (HashMap.mem_entries best e.1 e.2).mp member
  have ranked : input.bestThroughput e.1 = some e.2.throughput := by
    rw [← best_throughput ran, held, Option.map_some]
  simp only [Function.comp_apply, ranked, Option.any_some, decide_eq_true_eq]
  exact int64_lt_iff

theorem decided_iff : Decided throughputBefore 5 (best.entries.map Prod.snd) ↔ input.ContributorsDecided := by
  have listed (id : String) (f : F64) : input.bestThroughput id = some f ↔
      ∃ c, (id, c) ∈ best.entries ∧ c.throughput = f := by
    rw [← best_throughput ran, Option.map_eq_some_iff]
    simp only [HashMap.mem_entries]
  constructor
  · intro decided a b f g different first second tied
    obtain ⟨c, inc, rfl⟩ := (listed a f).mp first
    obtain ⟨d, ind, rfl⟩ := (listed b g).mp second
    rw [← above_best ran]
    refine decided c (List.mem_map_of_mem inc) d (List.mem_map_of_mem ind) ?_ ?_ ?_
    · exact (tied ▸ Int64.le_refl _ : totalOrderKey d.throughput ≤ totalOrderKey c.throughput)
    · exact (tied ▸ Int64.le_refl _ : totalOrderKey c.throughput ≤ totalOrderKey d.throughput)
    · rintro rfl
      have ownA := best_ownKeys ran a c ((HashMap.mem_entries _ _ _).mp inc)
      have ownB := best_ownKeys ran b c ((HashMap.mem_entries _ _ _).mp ind)
      exact different (ownA.symm.trans ownB)
  · intro decided c inc d ind before after different
    obtain ⟨⟨a, c⟩, heldC, rfl⟩ := List.mem_map.mp inc
    obtain ⟨⟨b, d⟩, heldD, rfl⟩ := List.mem_map.mp ind
    rw [above_best ran]
    refine decided a b c.throughput d.throughput ?_ ((listed a _).mpr ⟨c, heldC, rfl⟩)
      ((listed b _).mpr ⟨d, heldD, rfl⟩) (Int64.le_antisymm after before)
    rintro rfl
    rw [HashMap.mem_entries] at heldC heldD
    exact different (Option.some.inj (heldC.symm.trans heldD))

end

/-! ### Runs -/

instance : Std.Total throughputBefore := ⟨fun _ _ => Int64.le_total _ _⟩

instance : IsTrans Contributor throughputBefore := ⟨fun _ _ _ first second => Int64.le_trans second first⟩

theorem bestOf_unchecked (rows : List ServerRow) (best : HashMap String Contributor) :
    (bestOf false rows best).isSome = true := by
  have wraps (n : Int) : ∃ m, i64Result false n = some m := by
    unfold i64Result
    split
    · exact ⟨_, rfl⟩
    · exact ⟨_, rfl⟩
  induction rows generalizing best with
  | nil => rfl
  | cons row rows ih =>
    obtain ⟨span, first⟩ := wraps (row.span.stop - row.span.start)
    obtain ⟨blocks, second⟩ := wraps (span + 1)
    have stepped : ∃ next, bestStep false best row = some next := by
      simp [bestStep, contributor, first, second]
    obtain ⟨next, stepped⟩ := stepped
    rw [bestOf, List.foldlM_cons, stepped]
    exact ih next

theorem bestOf_isSome (input : CrawlInput) :
    (bestOf overflowChecks input.listedRows ∅).isSome = true ↔
      (overflowChecks = true → ∀ model ∈ input.models, ∀ peer ∈ input.peersOf model,
        CountFits peer.2.info.startBlock peer.2.info.endBlock) := by
  cases overflowChecks with
  | false => simp [bestOf_unchecked]
  | true =>
    have rows := contributors_isSome .insertion input
    rw [topContributors_eq, Option.isSome_map] at rows
    rw [rows]
    exact ⟨fun fits _ => fits, fun fits => fits rfl⟩

theorem completes_iff (input : CrawlInput) (order : IterOrder) :
    input.Completes overflowChecks ↔
      input.IdsSliceable order ∧ (bestOf overflowChecks input.listedRows ∅).isSome = true := by
  rw [bestOf_isSome, CrawlInput.Completes, CrawlInput.IdsSliceable, and_assoc]
  simp only [mem_peerIds_iff]

theorem build_of_sliceable {input : CrawlInput} {order : IterOrder} (ids : input.IdsSliceable order)
    (now : DateTime) :
    buildSnapshot overflowChecks order now input =
      (bestOf overflowChecks input.listedRows ∅).map fun best => input.document order now (headOf order best) := by
  apply Option.ext
  intro s
  rw [buildSnapshot_eq_some, topContributors_eq]
  simp only [Option.map_eq_some_iff]
  constructor
  · rintro ⟨-, contributors, ⟨best, ran, rfl⟩, rfl⟩
    exact ⟨best, ran, rfl⟩
  · rintro ⟨best, ran, rfl⟩
    exact ⟨ids, _, ⟨best, ran, rfl⟩, rfl⟩

theorem build_of_not_sliceable {input : CrawlInput} {order : IterOrder} (cut : ¬ input.IdsSliceable order)
    (now : DateTime) : buildSnapshot overflowChecks order now input = none := by
  rw [Option.eq_none_iff_forall_ne_some]
  intro s built
  exact cut ((buildSnapshot_eq_some input order overflowChecks now s).mp built).1

/-- Exactly when a document does not depend on hash iteration order: it is not built, or no two servers
tie at a place among the contributors that is shown. -/
theorem hash_order_free_iff (overflowChecks : Bool) (input : CrawlInput) :
    (∀ order order' now now' input', input.Rearranged input' →
      (buildSnapshot overflowChecks order now input).map Snapshot.undated =
        (buildSnapshot overflowChecks order' now' input').map Snapshot.undated) ↔
      (input.Completes overflowChecks → input.ContributorsDecided) := by
  constructor
  · intro free completes
    obtain ⟨best, ran⟩ := Option.isSome_iff_exists.mp ((completes_iff input .insertion).mp completes).2
    rw [← decided_iff ran]
    apply decided_of_rotate
    intro k
    have runs := free (.turned k) .insertion 0 0 input (.refl input)
    rw [build_of_sliceable ((completes_iff input _).mp completes).1,
      build_of_sliceable ((completes_iff input _).mp completes).1, ran] at runs
    have heads := congrArg Snapshot.topContributors (Option.some.inj runs)
    change headOf (.turned k) best = headOf .insertion best at heads
    rw [← List.map_rotate]
    exact heads
  · intro decided order order' now now' input' same
    have rows : input'.listedRows = input.listedRows := by
      unfold CrawlInput.listedRows
      rw [same.reports_eq]
    by_cases ids : input.IdsSliceable order
    · rw [build_of_sliceable ids, build_of_sliceable ((same.idsSliceable_iff order order').mpr ids), rows]
      cases ran : bestOf overflowChecks input.listedRows ∅ with
      | none => rfl
      | some best =>
        have completes : input.Completes overflowChecks := by
          rw [completes_iff input order, ran]
          exact ⟨ids, rfl⟩
        have arranged (o : IterOrder) : headOf o best = headOf .insertion best :=
          ((decided_iff ran).mpr (decided completes)).head_eq ((o.perm best.entries).map Prod.snd)
        have heads : headOf order' best = headOf order best := (arranged order').trans (arranged order).symm
        rw [Option.map_some, Option.map_some, Option.map_some, Option.map_some, heads,
          same.document_eq order order' now now']
        rfl
    · rw [build_of_not_sliceable ids,
        build_of_not_sliceable fun ids' => ids ((same.idsSliceable_iff order order').mp ids')]

/-- Six servers of one model announce the same throughput: which five are listed, and in what order, is
the order in which the map is iterated. -/
theorem contributors_follow_hash_order :
    let model : Model := { dhtPrefix := "m", repository := "", numBlocks := 1 }
    let entry : PeerModelEntry := { info := { state := "online", throughput := 1.0 }, blocks := ∅ }
    let peers : HashMap String PeerModelEntry :=
      ["QmA", "QmB", "QmC", "QmD", "QmE", "QmF"].foldl (fun peers id => peers.insert id entry) ∅
    let input : CrawlInput :=
      { models := [model]
        perModel := (∅ : BTreeMap String (HashMap String PeerModelEntry)).insert "m" peers
        geo := .disabled }
    let listed (s : Snapshot) : List String := s.topContributors.map (·.peerId)
    (buildSnapshot true .insertion 0 input).map listed = some ["QmA", "QmB", "QmC", "QmD", "QmE"] ∧
      (buildSnapshot true (.turned 1) 0 input).map listed = some ["QmB", "QmC", "QmD", "QmE", "QmF"] := by
  decide +kernel

end

end KwaaiNetMap
