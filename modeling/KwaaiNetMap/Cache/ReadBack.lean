import KwaaiNetMap.Cache.Hold
import KwaaiNetMap.Crawler.Scripted
import KwaaiNetMap.Snapshot.ReadBack

/-!
Holding a snapshot mixes two documents and adds marks, none of which a reader loses: every document of a
run of plain crawls comes back whole. One record with a throughput that is not a number makes the document
of its pass unreadable, and one with a nil capability map comes back without it.
-/

namespace KwaaiNetMap
open Collections Numeric

theorem plain_mergeCrawl {text : WireText} {served fresh : Snapshot} (plain : served.Plain text ∧ served.Shallow)
    (next : fresh.Plain text ∧ fresh.Shallow) :
    (mergeCrawl served fresh).Plain text ∧ (mergeCrawl served fresh).Shallow := by
  unfold mergeCrawl
  split
  · exact next
  · exact ⟨{ plain.1 with updatePeriod := next.1.updatePeriod, updateDuration := next.1.updateDuration },
      ⟨plain.2.modelReports, plain.2.peers⟩⟩

theorem plain_default {text : WireText} (zero : text.restored 0.0 = 0.0) (now : DateTime) :
    (Snapshot.default now).Plain text ∧ (Snapshot.default now).Shallow := by
  refine ⟨?_, ⟨by simp [Snapshot.default], by simp [Snapshot.default]⟩⟩
  exact {
    modelReports := by simp [Snapshot.default]
    numPeers := (by decide : 0 < 2 ^ 64)
    numBlocksCovered := (by decide : 0 < 2 ^ 64)
    topContributors := by simp [Snapshot.default]
    updatePeriod := (by decide : 0 < 2 ^ 64)
    updateDuration := ⟨(by decide +kernel : (0.0 : F64).isFinite = true), zero⟩
    peers := by simp [Snapshot.default] }

/-- From startup, every document served over a run of plain crawls comes back whole, held or fresh. -/
theorem served_reads_back {text : WireText} (zero : text.restored 0.0 = 0.0) (now : DateTime)
    (crawls : List Snapshot) (plain : ∀ crawl ∈ crawls, crawl.Plain text ∧ crawl.Shallow) :
    let served := ((NodeCache.new now).publishAll crawls).snapshot
    served.readBack text = some served.unnamed := by
  have run (crawls : List Snapshot) (plain : ∀ crawl ∈ crawls, crawl.Plain text ∧ crawl.Shallow) (cache : NodeCache)
      (start : cache.snapshot.Plain text ∧ cache.snapshot.Shallow) :
      (cache.publishAll crawls).snapshot.Plain text ∧ (cache.publishAll crawls).snapshot.Shallow := by
    induction crawls generalizing cache with
    | nil => exact start
    | cons crawl rest ih =>
      apply ih (fun later member => plain later (List.mem_cons_of_mem _ member))
      exact plain_mergeCrawl start (plain crawl List.mem_cons_self)
  exact (readBack_iff text _).mpr (run crawls plain _ (plain_default zero now))

def WireText.tally : WireText where
  restored x := x
  writeTime t := String.ofList (List.replicate t.toNat '+' ++ List.replicate (-t).toNat '-')
  readTime s := some ((s.toList.count '+' : Int) - s.toList.count '-')
  readTime_writeTime t := by
    have length (n : Int) : max n 0 - max (-n) 0 = n := by omega
    refine congrArg some (Eq.trans ?_ (length t))
    simp [List.count_replicate]

/-- A record whose throughput is not a number, decoded, shown and served, makes the document
unreadable. -/
theorem nan_throughput_unreadable :
    let nan : Wire :=
      { bytes := [0xcb, 0x7f, 0xf8, 0, 0, 0, 0, 0, 0], value := .f64 ⟨0x7ff8000000000000⟩ }
    let dictionary := Wire.dictionary [("QmA", Wire.ext 64 (Wire.arr [Wire.int 2, nan, Wire.map []]))]
    let model : Model := { dhtPrefix := "m", repository := "", numBlocks := 1 }
    let input := CrawlInput.lone (Wire.reader [dictionary]) model [{ results := [.dictionary dictionary] }]
    ∃ s, buildSnapshot true .insertion 0 input = some s ∧
      ((NodeCache.new 0).publish s).snapshot.readBack .tally = none := by
  intro nan dictionary model input
  have completes : (buildSnapshot true .insertion 0 input).isSome = true := by decide +kernel
  have unread : ((buildSnapshot true .insertion 0 input).bind fun s =>
      ((NodeCache.new 0).publish s).snapshot.readBack .tally).isNone = true := by
    decide +kernel
  obtain ⟨s, built⟩ := Option.isSome_iff_exists.mp completes
  rw [built] at unread
  exact ⟨s, built, Option.isNone_iff_eq_none.mp unread⟩

/-- A record whose capability map is nil: the row says there is one, and what comes back says there is
none. -/
theorem nil_vpk_lost :
    let record := Wire.record 2 [("vpk", { bytes := [0xc0], value := .nil })]
    let dictionary := Wire.dictionary [("QmA", record)]
    let rmpv : Rmpv :=
      { Wire.reader [dictionary] with toJson := fun v => if v matches .nil then some .null else none }
    let model : Model := { dhtPrefix := "m", repository := "", numBlocks := 1 }
    let input := CrawlInput.lone rmpv model [{ results := [.dictionary dictionary] }]
    let vpks (s : Snapshot) : List Bool := s.peers.map (·.vpk.isSome)
    (buildSnapshot true .insertion 0 input).map vpks = some [true] ∧
      ((buildSnapshot true .insertion 0 input).bind fun s => s.readBack .tally).map vpks = some [false] := by
  decide +kernel

end KwaaiNetMap
