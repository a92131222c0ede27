import KwaaiNetMap.Collections.Leading
import KwaaiNetMap.Crawler.HashOrder
import KwaaiNetMap.Numeric.TotalOrder

/-!
The contributors are the five fastest peers, each with its best throughput (`contributors_listed`). Their block
count is one more than the span holds, whose end is exclusive: `contributors_right_iff` says when that goes
unseen.
-/

namespace KwaaiNetMap
open Collections Numeric

def ServerRow.throughput (row : ServerRow) : F64 := row.span.serverInfo.throughput

def ServerRow.blocks (row : ServerRow) : Int := row.span.stop - row.span.start

def ServerRow.IsBest (rows : List ServerRow) (row : ServerRow) : Prop :=
  ∀ other ∈ rows, other.peerId = row.peerId → ¬ row.throughput < other.throughput

instance (rows : List ServerRow) : DecidablePred (ServerRow.IsBest rows) := fun row =>
  inferInstanceAs (Decidable (∀ other ∈ rows, other.peerId = row.peerId → ¬ row.throughput < other.throughput))

def peersIn (rows : List ServerRow) : List String := (rows.map (·.peerId)).dedup

def firstBest (rows : List ServerRow) (id : String) : Option ServerRow :=
  rows.find? fun row => decide (row.peerId = id ∧ row.IsBest rows)

def peersAbove (rows : List ServerRow) (throughput : F64) : Nat :=
  (peersIn rows).countP fun id =>
    (firstBest rows id).any fun best => decide (totalOrderKey throughput < totalOrderKey best.throughput)

/-- The five fastest peers, fastest first, each with its best throughput. -/
structure ContributorsListed (rows : List ServerRow) (listed : List Contributor) : Prop where
  length : listed.length = min 5 (peersIn rows).length
  distinct : (listed.map (·.peerId)).Nodup
  sorted : listed.Pairwise fun a b => ¬ a.throughput < b.throughput
  best : ∀ c ∈ listed, ∃ row ∈ rows, row.peerId = c.peerId ∧ row.IsBest rows ∧ c.throughput = row.throughput
  left : ∀ row ∈ rows, row.peerId ∉ listed.map (·.peerId) → ∀ c ∈ listed, ¬ c.throughput < row.throughput

def BlocksRight (rows : List ServerRow) (listed : List Contributor) : Prop :=
  ∀ c ∈ listed, ∃ row ∈ rows, row.peerId = c.peerId ∧ row.IsBest rows ∧ c.blocks = row.blocks

/-! ### The map of the best -/

section
variable {rows : List ServerRow} (finite : ∀ row ∈ rows, row.throughput.isFinite = true)
include finite

def ServerRow.rank (row : ServerRow) : WithBot Int := weight row.throughput.toFloat

theorem rank_lt_iff {row other : ServerRow} (member : row ∈ rows) (also : other ∈ rows) :
    row.rank < other.rank ↔ row.throughput < other.throughput := by
  rw [F64.lt_iff_weight (finite row member) (finite other also)]
  exact WithBot.coe_lt_coe

omit finite in
theorem mem_of_leading_head {row : ServerRow} (first : (leading ServerRow.rank rows).head? = some row) : row ∈ rows :=
  (mem_leading.mp (List.mem_of_head? first)).1

theorem foldl_higher :
    rows.foldl (fun held row => some (higher (contributorOf row) held)) none =
      (leading ServerRow.rank rows).head?.map contributorOf := by
  induction rows using List.reverseRecOn with
  | nil => rfl
  | append_singleton rows row ih =>
    have earlier : ∀ r ∈ rows, r.throughput.isFinite = true := fun r member =>
      finite r (List.mem_append_left _ member)
    rw [← foldl_keepFirst, List.foldl_append, List.foldl_append, ih earlier, foldl_keepFirst]
    change some (higher (contributorOf row) _) = some (contributorOf (keepFirst ServerRow.rank row _))
    cases first : (leading ServerRow.rank rows).head? with
    | none => rfl
    | some held =>
      have above := rank_lt_iff finite (List.mem_append_left [row] (mem_of_leading_head first))
        (List.mem_append_right rows List.mem_cons_self)
      change some (if held.throughput < row.throughput then contributorOf row else contributorOf held) =
        some (contributorOf (if held.rank < row.rank then row else held))
      simp only [above]
      split <;> rfl

theorem firstBest_eq (id : String) :
    firstBest rows id = (leading ServerRow.rank (rows.filter fun row => decide (row.peerId = id))).head? := by
  have members : ∀ row, row ∈ rows.filter (fun row => decide (row.peerId = id)) ↔ row ∈ rows ∧ row.peerId = id := by
    simp
  have best : ∀ row ∈ rows.filter (fun row => decide (row.peerId = id)),
      row.IsBest rows ↔ row.rank = top ServerRow.rank (rows.filter fun row => decide (row.peerId = id)) := by
    intro row own
    obtain ⟨member, rfl⟩ := (members row).mp own
    constructor
    · intro best
      refine (top_eq_of_mem own fun other also => ?_).symm
      obtain ⟨listed, same⟩ := (members other).mp also
      rw [← not_lt, rank_lt_iff finite member listed]
      exact best other listed same
    · intro attained other listed same
      rw [← rank_lt_iff finite member listed, not_lt, attained]
      exact le_top ((members other).mpr ⟨listed, same⟩)
  rw [firstBest, ← List.head?_filter]
  have kept : leading ServerRow.rank (rows.filter fun row => decide (row.peerId = id)) =
      (rows.filter fun row => decide (row.peerId = id)).filter fun row => decide (row.IsBest rows) :=
    leading_eq_filter fun row own => by rw [decide_eq_true_eq, best row own]
  rw [kept, List.filter_filter]
  congr 2
  funext row
  rw [Bool.decide_and, Bool.and_comm]

theorem firstBest_isSome (id : String) : (firstBest rows id).isSome = true ↔ id ∈ peersIn rows := by
  rw [firstBest_eq finite, peersIn, List.mem_dedup, List.mem_map]
  constructor
  · intro some
    obtain ⟨row, first⟩ := Option.isSome_iff_exists.mp some
    obtain ⟨member, own⟩ := List.mem_filter.mp (mem_of_leading_head first)
    exact ⟨row, member, of_decide_eq_true own⟩
  · rintro ⟨row, member, own⟩
    have filled : rows.filter (fun row => decide (row.peerId = id)) ≠ [] :=
      List.ne_nil_of_mem (List.mem_filter.mpr ⟨member, decide_eq_true own⟩)
    obtain ⟨first, found, -⟩ : ∃ first, (leading ServerRow.rank _).head? = some first ∧ _ := exists_leading filled
    exact Option.isSome_iff_exists.mpr ⟨first, found⟩

omit finite in
theorem firstBest_spec {id : String} {row : ServerRow} (first : firstBest rows id = some row) :
    row ∈ rows ∧ row.peerId = id ∧ row.IsBest rows := by
  unfold firstBest at first
  have found := List.find?_some first
  exact ⟨List.mem_of_find?_eq_some first, of_decide_eq_true found⟩

end

def bestMap (rows : List ServerRow) : HashMap String Contributor := rows.foldl bestPass ∅

theorem bestOf_eq (overflowChecks : Bool) {rows : List ServerRow} (fits : ∀ row ∈ rows, RowFits row) :
    bestOf overflowChecks rows ∅ = some (bestMap rows) := by
  have step (best : HashMap String Contributor) {row : ServerRow} (rowFits : RowFits row) :
      bestStep overflowChecks best row = some (bestPass best row) := by
    simp only [bestStep, contributor, i64Result_of_inI64 rowFits.1]
    simp only [Option.bind_eq_bind, Option.bind_some, i64Result_of_inI64 rowFits.2]
    rfl
  have run (best : HashMap String Contributor) : bestOf overflowChecks rows best = some (rows.foldl bestPass best) := by
    induction rows generalizing best with
    | nil => rfl
    | cons row rows ih =>
      rw [bestOf, List.foldlM_cons, step best (fits row List.mem_cons_self)]
      exact ih (fun r member => fits r (List.mem_cons_of_mem _ member)) (bestPass best row)
  exact run ∅

section
variable {rows : List ServerRow} (finite : ∀ row ∈ rows, row.throughput.isFinite = true)
include finite

theorem get?_bestMap (id : String) : (bestMap rows).get? id = (firstBest rows id).map contributorOf := by
  have own := get?_foldl_upsert (μ := HashMap String Contributor) (·.peerId)
    (fun row => higher (contributorOf row)) rows ∅ id
  have mine : ∀ row ∈ rows.filter (fun row => decide (row.peerId = id)), row.throughput.isFinite = true :=
    fun row member => finite row (List.mem_filter.mp member).1
  have held := foldl_higher mine
  rw [firstBest_eq finite, ← held]
  exact own

theorem mem_bestMap_entries {id : String} {c : Contributor} :
    (id, c) ∈ (bestMap rows).entries ↔ ∃ row, firstBest rows id = some row ∧ contributorOf row = c := by
  rw [HashMap.mem_entries, get?_bestMap finite, Option.map_eq_some_iff]

theorem bestMap_keys : (bestMap rows).keys.Perm (peersIn rows) := by
  refine (List.perm_ext_iff_of_nodup (bestMap rows).nodup (List.nodup_dedup _)).mpr fun id => ?_
  change id ∈ (bestMap rows).keys ↔ _
  rw [HashMap.mem_keys, get?_bestMap finite, Option.isSome_map]
  exact firstBest_isSome finite id

theorem bestMap_ids : ((bestMap rows).entries.map Prod.snd).map (·.peerId) = (bestMap rows).keys := by
  rw [List.map_map, HashMap.keys]
  refine List.map_congr_left fun e member => ?_
  obtain ⟨row, first, same⟩ := (mem_bestMap_entries finite).mp member
  change e.2.peerId = e.1
  rw [← same]
  exact (firstBest_spec first).2.1

/-! ### The head of the ranking -/

theorem mem_bestMap_values {c : Contributor} :
    c ∈ (bestMap rows).entries.map Prod.snd ↔ ∃ id row, firstBest rows id = some row ∧ contributorOf row = c := by
  rw [List.mem_map]
  constructor
  · rintro ⟨⟨id, c⟩, member, rfl⟩
    exact ⟨id, (mem_bestMap_entries finite).mp member⟩
  · rintro ⟨id, row, first, same⟩
    exact ⟨(id, c), (mem_bestMap_entries finite).mpr ⟨row, first, same⟩, rfl⟩

theorem above_bestMap (c : Contributor) :
    above throughputBefore ((bestMap rows).entries.map Prod.snd) c = peersAbove rows c.throughput := by
  unfold above peersAbove
  rw [← (bestMap_keys finite).countP_eq, HashMap.keys, List.countP_map, List.countP_map]
  refine List.countP_congr fun e member => ?_
  obtain ⟨row, first, same⟩ := (mem_bestMap_entries finite).mp member
  have speed : e.2.throughput = row.throughput := by rw [← same]; rfl
  simp only [Function.comp_apply, first, Option.any_some, decide_eq_true_eq, throughputBefore, speed]
  exact int64_lt_iff

variable (order : IterOrder)

def ranking (order : IterOrder) (rows : List ServerRow) : List Contributor :=
  ((order.iter (bestMap rows).entries).map Prod.snd).insertionSort throughputBefore

omit finite in
theorem ranking_perm : (ranking order rows).Perm ((bestMap rows).entries.map Prod.snd) :=
  (List.perm_insertionSort throughputBefore _).trans ((order.perm _).map Prod.snd)

omit finite in
theorem ranking_sorted : (ranking order rows).Pairwise throughputBefore :=
  List.pairwise_insertionSort throughputBefore _

theorem mem_ranking {c : Contributor} :
    c ∈ ranking order rows ↔ ∃ id row, firstBest rows id = some row ∧ contributorOf row = c := by
  rw [(ranking_perm order).mem_iff, mem_bestMap_values finite]

theorem ranking_ids : ((ranking order rows).map (·.peerId)).Perm (peersIn rows) := by
  have ids : ((ranking order rows).map (·.peerId)).Perm _ := (ranking_perm order).map (·.peerId)
  rw [bestMap_ids finite] at ids
  exact ids.trans (bestMap_keys finite)

theorem not_lt_of_before {c d : Contributor} (first : c ∈ ranking order rows) (second : d ∈ ranking order rows)
    (before : throughputBefore c d) : ¬ c.throughput < d.throughput := by
  obtain ⟨id, row, best, rfl⟩ := (mem_ranking finite order).mp first
  obtain ⟨id', other, next, rfl⟩ := (mem_ranking finite order).mp second
  intro slower
  have finiteC := finite row (firstBest_spec best).1
  have finiteD := finite other (firstBest_spec next).1
  exact Int64.not_le.mpr (totalOrderKey_lt finiteC finiteD ((F64.lt_iff_weight finiteC finiteD).mp slower)) before

theorem contributors_listed : ContributorsListed rows ((ranking order rows).take 5) where
  length := by
    have size := (ranking_ids finite order).length_eq
    rw [List.length_map] at size
    rw [List.length_take, size]
  distinct := by
    have ids := (ranking_ids finite order).nodup_iff.mpr (List.nodup_dedup _)
    exact ids.sublist ((List.take_sublist 5 _).map _)
  sorted := by
    refine ((ranking_sorted order).sublist (List.take_sublist 5 _)).imp_of_mem fun first second before => ?_
    exact not_lt_of_before finite order (List.mem_of_mem_take first) (List.mem_of_mem_take second) before
  best c shown := by
    obtain ⟨id, row, first, rfl⟩ := (mem_ranking finite order).mp (List.mem_of_mem_take shown)
    obtain ⟨member, own, best⟩ := firstBest_spec first
    exact ⟨row, member, rfl, best, rfl⟩
  left row member missing c shown := by
    obtain ⟨best, first⟩ := Option.isSome_iff_exists.mp ((firstBest_isSome finite row.peerId).mpr
      (List.mem_dedup.mpr (List.mem_map_of_mem member)))
    obtain ⟨listed, own, highest⟩ := firstBest_spec first
    have ranked : contributorOf best ∈ ranking order rows := (mem_ranking finite order).mpr ⟨_, best, first, rfl⟩
    have dropped : contributorOf best ∈ (ranking order rows).drop 5 := by
      rw [← List.take_append_drop 5 (ranking order rows)] at ranked
      refine (List.mem_append.mp ranked).resolve_left fun taken => missing ?_
      exact own ▸ List.mem_map_of_mem (f := (·.peerId)) taken
    have sorted : (ranking order rows).Pairwise throughputBefore := ranking_sorted order
    rw [← List.take_append_drop 5 (ranking order rows)] at sorted
    have before := (List.pairwise_append.mp sorted).2.2 c shown _ dropped
    have slower := not_lt_of_before finite order (List.mem_of_mem_take shown) ranked before
    obtain ⟨id, first', found, rfl⟩ := (mem_ranking finite order).mp (List.mem_of_mem_take shown)
    have finiteC := finite first' (firstBest_spec found).1
    have below := highest row member own.symm
    change ¬ first'.throughput < best.throughput at slower
    change ¬ first'.throughput < row.throughput
    rw [F64.lt_iff_weight finiteC (finite best listed)] at slower
    rw [F64.lt_iff_weight (finite best listed) (finite row member)] at below
    rw [F64.lt_iff_weight finiteC (finite row member)]
    omega

/-! ### Block counts -/

omit finite in
/-- Among the peers that can be listed, each announces its best throughput again over one block more than where
it first does. -/
def WidthsHide (rows : List ServerRow) : Prop :=
  ∀ id first, firstBest rows id = some first → peersAbove rows first.throughput < 5 →
    ∃ row ∈ rows, row.peerId = id ∧ row.IsBest rows ∧ row.blocks = first.blocks + 1

theorem listed_under_some_order {c : Contributor} (member : c ∈ (bestMap rows).entries.map Prod.snd) :
    (∃ order, c ∈ (ranking order rows).take 5) ↔ peersAbove rows c.throughput < 5 := by
  rw [← above_bestMap finite]
  constructor
  · rintro ⟨order, shown⟩
    have refl : Std.Refl throughputBefore := ⟨fun _ => Int64.le_refl _⟩
    have few := above_lt_of_mem_take (ranking_sorted order) shown
    rwa [above_perm (ranking_perm order)] at few
  · intro few
    obtain ⟨k, place⟩ := rotate_getElem?_above (r := throughputBefore) member
    rw [← List.getElem?_take_of_lt few, ← List.map_rotate] at place
    exact ⟨.turned k, List.mem_of_getElem? place⟩

theorem blocks_right_iff : (∀ order, BlocksRight rows ((ranking order rows).take 5)) ↔ WidthsHide rows := by
  constructor
  · intro right id first found few
    have member : contributorOf first ∈ (bestMap rows).entries.map Prod.snd :=
      (mem_bestMap_values finite).mpr ⟨id, first, found, rfl⟩
    obtain ⟨order, shown⟩ := (listed_under_some_order finite member).mpr few
    obtain ⟨row, listed, own, best, same⟩ := right order _ shown
    exact ⟨row, listed, own.trans (firstBest_spec found).2.1, best, same.symm⟩
  · intro hide order c shown
    have member := (ranking_perm order).mem_iff.mp (List.mem_of_mem_take shown)
    obtain ⟨id, first, found, rfl⟩ := (mem_bestMap_values finite).mp member
    have few := (listed_under_some_order finite member).mp ⟨order, shown⟩
    obtain ⟨row, listed, own, best, wider⟩ := hide id first found few
    exact ⟨row, listed, own.trans (firstBest_spec found).2.1.symm, best, wider.symm⟩

end

/-- The contributors are right but for their block counts, and those only where the widths hide the defect. -/
theorem contributors_right_iff (overflowChecks : Bool) {reports : List ModelReport}
    (finite : ∀ row ∈ reports.flatMap (·.serverRows), row.throughput.isFinite = true)
    (fits : ∀ row ∈ reports.flatMap (·.serverRows), RowFits row) :
    (∀ order, ∃ listed, topContributors overflowChecks order reports = some listed ∧
      ContributorsListed (reports.flatMap (·.serverRows)) listed ∧
        BlocksRight (reports.flatMap (·.serverRows)) listed) ↔
      WidthsHide (reports.flatMap (·.serverRows)) := by
  have ran (order : IterOrder) : topContributors overflowChecks order reports =
      some ((ranking order (reports.flatMap (·.serverRows))).take 5) := by
    rw [topContributors_rows, bestOf_eq overflowChecks fits]
    rfl
  rw [← blocks_right_iff finite]
  refine forall_congr' fun order => ?_
  rw [ran]
  constructor
  · rintro ⟨listed, same, -, blocks⟩
    exact Option.some.inj same ▸ blocks
  · intro blocks
    exact ⟨_, rfl, contributors_listed finite order, blocks⟩

instance : DecidablePred RowFits := fun row =>
  inferInstanceAs (Decidable (InI64 (row.span.stop - row.span.start) ∧ InI64 (row.span.stop - row.span.start + 1)))

def spanRow (start stop : Int) : ServerRow :=
  { peerId := "QmA"
    shortPeerId := "QmA"
    showPublicName := false
    state := "online"
    peerIpInfo := {}
    span := { peerId := "QmA", start, stop, serverInfo := { state := "online", throughput := 1.0 } } }

def spanReport (dhtPrefix : String) (start stop : Int) : ModelReport :=
  { name := dhtPrefix, shortName := dhtPrefix, dhtPrefix, repository := "", numBlocks := 2, state := "healthy",
    serverRows := [spanRow start stop] }

/-- One server of two models, as fast in both and over one block more in the second. -/
theorem contributors_right_of_two_spans :
    let reports := [spanReport "a" 0 1, spanReport "b" 0 2]
    ∃ listed, topContributors true .insertion reports = some listed ∧
      ContributorsListed (reports.flatMap (·.serverRows)) listed ∧
        BlocksRight (reports.flatMap (·.serverRows)) listed := by
  intro reports
  have finite : ∀ row ∈ reports.flatMap (·.serverRows), row.throughput.isFinite = true := by decide +kernel
  have fits : ∀ row ∈ reports.flatMap (·.serverRows), RowFits row := by decide
  have hide : WidthsHide (reports.flatMap (·.serverRows)) := by
    intro id first found _
    obtain ⟨member, rfl, -⟩ := firstBest_spec found
    have own : first.peerId = "QmA" := by
      have names : ∀ row ∈ reports.flatMap (·.serverRows), row.peerId = "QmA" := by decide
      exact names first member
    have front : firstBest (reports.flatMap (·.serverRows)) "QmA" = some (spanRow 0 1) :=
      List.find?_cons_of_pos (by decide +kernel)
    rw [own, front] at found
    obtain rfl := Option.some.inj found
    exact ⟨spanRow 0 2, List.mem_cons_of_mem _ List.mem_cons_self, rfl, by decide +kernel, rfl⟩
  exact (contributors_right_iff true finite fits).mpr hide .insertion

/-- A server of one block, announced as the span from 0 to 1, is shown with two. -/
theorem contributor_counts_end :
    let reports := [spanReport "m" 0 1]
    (∀ row ∈ reports.flatMap (·.serverRows), row.throughput.isFinite = true ∧ RowFits row) ∧
      (topContributors true .insertion reports).map (fun listed => listed.map fun c => (c.peerId, c.blocks)) =
        some [("QmA", 2)] ∧
      ¬ ∀ order, ∃ listed, topContributors true order reports = some listed ∧
        ContributorsListed (reports.flatMap (·.serverRows)) listed ∧
          BlocksRight (reports.flatMap (·.serverRows)) listed := by
  intro reports
  have shown : (topContributors true .insertion reports).map (fun listed => listed.map fun c => (c.peerId, c.blocks)) =
      some [("QmA", 2)] := by decide +kernel
  have widths : ∀ row ∈ reports.flatMap (·.serverRows), row.blocks = 1 := by decide
  refine ⟨by decide +kernel, shown, fun right => ?_⟩
  obtain ⟨listed, ran, -, blocks⟩ := right .insertion
  rw [ran, Option.map_some, Option.some.injEq] at shown
  have counted : ("QmA", (2 : Int)) ∈ listed.map fun c => (c.peerId, c.blocks) := shown ▸ List.mem_cons_self
  obtain ⟨c, member, same⟩ := List.mem_map.mp counted
  obtain ⟨row, listedRow, -, -, equal⟩ := blocks c member
  rw [widths row listedRow, (Prod.mk.inj same).2] at equal
  exact absurd equal (by decide)

end KwaaiNetMap
