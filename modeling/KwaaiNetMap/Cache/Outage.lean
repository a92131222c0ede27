import KwaaiNetMap.Cache.Publish
import KwaaiNetMap.Crawler.Classify
import KwaaiNetMap.Crawler.Document
import KwaaiNetMap.Crawler.Scripted
import KwaaiNetMap.Crawler.Silence

/-!
A pass nobody answered reaches the cache empty when no bootstrap could be dialed, and otherwise as a document
without reports whose peers are the connected ones that speak kad. `outage_keeps_reports_iff` says when
the served reports survive it.
-/

namespace KwaaiNetMap
open Collections

section
variable {rmpv : Rmpv} {order : IterOrder} {base : CrawlInput} {answers : Answers}

theorem peersOf_silent (silent : ∀ answer ∈ answers, answer.2 = []) (model : Model) :
    (base.withAnswers rmpv order answers []).peersOf model = [] := by
  have under : answers.under model.dhtPrefix = [] := by
    refine List.flatMap_eq_nil_iff.mpr fun answer member => silent answer (List.mem_filter.mp member).1
  refine List.eq_nil_iff_forall_not_mem.mpr ?_
  rintro ⟨id, e⟩ member
  rw [mem_peersOf_withAnswers, under] at member
  cases member

theorem reports_silent (silent : ∀ answer ∈ answers, answer.2 = []) :
    (base.withAnswers rmpv order answers []).reports = [] := by
  have listed : (base.withAnswers rmpv order answers []).listed = [] :=
    List.filter_eq_nil_iff.mpr fun model _ => by simp [peersOf_silent silent model]
  rw [CrawlInput.reports, listed]
  rfl

theorem mem_peerIds_silent (silent : ∀ answer ∈ answers, answer.2 = []) (id : String) :
    id ∈ ((base.withAnswers rmpv order answers []).peerIds order).items ↔
      (∃ o, base.addrs.get? id = some o ∧ o.kwaaiKad = true) ∧ base.exclude.contains id = false := by
  have block : ¬ ((base.withAnswers rmpv order answers []).blockOf.get? id).isSome = true := by
    rw [blockOf_isSome]
    rintro ⟨model, -, peer, member, -⟩
    rw [peersOf_silent silent] at member
    cases member
  have capability : ¬ id ∈ (base.withAnswers rmpv order answers []).capabilityPeers.keys := by
    rw [mem_capability_withAnswers]
    rintro ⟨resp, answered, -⟩
    cases answered
  rw [mem_peerIds]
  exact and_congr_left fun _ => ⟨fun either => (either.resolve_left block).resolve_left capability,
    fun kad => Or.inr (Or.inr kad)⟩

end

/-- Every connected peer that speaks kad is a bootstrap or the observer itself. -/
def NoKadPeer (world : World) (bootstrapPeers : List String) : Prop :=
  ∀ peers, world.listPeers = some peers → ∀ peer ∈ peers, speaksKwaaiKad peer.protocols = true →
    (excludedPeers world.localPeerId bootstrapPeers).contains peer.peerId = true

theorem crawlInput_kad (order : IterOrder) (bootstrapPeers : List String) (world : World) (geo : GeoIp)
    (reading : Reading) (id : String) :
    (∃ o, (crawlInput order bootstrapPeers world geo reading).addrs.get? id = some o ∧ o.kwaaiKad = true) ↔
      ∃ peers, world.listPeers = some peers ∧
        ∃ peer ∈ peers, peer.peerId = id ∧ speaksKwaaiKad peer.protocols = true := by
  rw [← observedAddrs_speaks]
  simp only [crawlInput, HashMap.get?_reorder]

theorem no_rows_iff {rmpv : Rmpv} {order : IterOrder} {answers : Answers} {bootstrapPeers : List String}
    {world : World} {geo : GeoIp} {reading : Reading} (silent : ∀ answer ∈ answers, answer.2 = []) :
    (((crawlInput order bootstrapPeers world geo reading).withAnswers rmpv order answers []).peerIds order).items =
        [] ↔ NoKadPeer world bootstrapPeers := by
  rw [List.eq_nil_iff_forall_not_mem]
  constructor
  · intro none list listed peer member speaks
    by_contra kept
    have included : (excludedPeers world.localPeerId bootstrapPeers).contains peer.peerId = false :=
      Bool.eq_false_iff.mpr kept
    apply none peer.peerId
    rw [mem_peerIds_silent silent, crawlInput_kad]
    exact ⟨⟨list, listed, peer, member, rfl, speaks⟩, included⟩
  · intro excluded id row
    rw [mem_peerIds_silent silent, crawlInput_kad] at row
    obtain ⟨⟨list, listed, peer, member, rfl, speaks⟩, kept⟩ := row
    have dropped := excluded list listed peer member speaks
    exact absurd (dropped.symm.trans kept) (by decide)

theorem crawlOnce_undialable {overflowChecks : Bool} {order : IterOrder} {rmpv : Rmpv} {bootstrapPeers : List String}
    {world : World} {geo : GeoIp} {fresh : Snapshot}
    (undialable : (dialBootstraps world.net bootstrapPeers).set.hasDialable = false)
    (ran : crawlOnce overflowChecks order rmpv bootstrapPeers world geo = some fresh) :
    fresh.modelReports = [] ∧ fresh.numPeers = 0 := by
  unfold crawlOnce at ran
  simp only [undialable, Bool.not_false, if_true] at ran
  obtain rfl := Option.some.inj ran
  exact ⟨rfl, rfl⟩

/-- What a pass that read nothing publishes: no report, and no peer exactly when no bootstrap could be
dialed or no connected peer speaks kad. -/
theorem silent_crawl {overflowChecks : Bool} {order : IterOrder} {rmpv : Rmpv} {bootstrapPeers : List String}
    {world : World} {geo : GeoIp} {fresh : Snapshot}
    (ran : crawlOnce overflowChecks order rmpv bootstrapPeers world geo = some fresh)
    (offline : ∀ state ∈ fresh.bootstrapStates, state = "offline") :
    fresh.modelReports = [] ∧
      (fresh.numPeers = 0 ↔
        (dialBootstraps world.net bootstrapPeers).set.hasDialable = false ∨ NoKadPeer world bootstrapPeers) := by
  cases dialable : (dialBootstraps world.net bootstrapPeers).set.hasDialable with
  | false =>
    obtain ⟨reports, peers⟩ := crawlOnce_undialable dialable ran
    exact ⟨reports, fun _ => Or.inl rfl, fun _ => peers⟩
  | true =>
    obtain ⟨built, assembled, rfl⟩ := crawlOnce_dialable dialable ran
    have states : built.bootstrapStates =
        (readDht rmpv world (dialBootstraps world.net bootstrapPeers)).pass.set.states := by
      obtain ⟨-, contributors, -, same⟩ :=
        (buildSnapshot_eq_some _ order overflowChecks world.now built).mp assembled
      rw [same]
      simp only [CrawlInput.document, crawlInput]
    obtain ⟨silent, capability⟩ := silent_pass (states ▸ offline)
    have input := crawlInput_eq rmpv order bootstrapPeers world geo (dialBootstraps world.net bootstrapPeers)
    dsimp only at input
    rw [capability] at input
    have reports := built_modelReports assembled
    have peers := built_numPeers assembled
    rw [input] at reports peers
    have rows : built.numPeers = 0 ↔ NoKadPeer world bootstrapPeers := by
      rw [peers, List.length_eq_zero_iff, no_rows_iff silent]
    exact ⟨reports.trans (reports_silent silent), rows.trans (by simp)⟩

/-- Exactly when the served reports survive a pass in which no query was answered: the served snapshot
lists a peer, and no bootstrap could be dialed or no connected peer speaks kad. -/
theorem outage_keeps_reports_iff {cache : NodeCache} {overflowChecks : Bool} {order : IterOrder} {rmpv : Rmpv}
    {bootstrapPeers : List String} {world : World} {geo : GeoIp} {fresh : Snapshot}
    (ran : crawlOnce overflowChecks order rmpv bootstrapPeers world geo = some fresh)
    (offline : ∀ state ∈ fresh.bootstrapStates, state = "offline")
    (reported : cache.snapshot.modelReports ≠ []) :
    ((cache.publish fresh).snapshot.modelReports = cache.snapshot.modelReports ∧
      (cache.publish fresh).snapshot.numBlocksCovered = cache.snapshot.numBlocksCovered ∧
      (cache.publish fresh).snapshot.topContributors = cache.snapshot.topContributors) ↔
    cache.snapshot.numPeers > 0 ∧
      ((dialBootstraps world.net bootstrapPeers).set.hasDialable = false ∨ NoKadPeer world bootstrapPeers) := by
  obtain ⟨reports, peers⟩ := silent_crawl ran offline
  rw [← peers]
  unfold NodeCache.publish mergeCrawl
  dsimp only
  split
  · rename_i replaces
    constructor
    · rintro ⟨same, -⟩
      exact absurd (same.symm.trans reports) reported
    · rintro ⟨served, none⟩
      omega
  · rename_i holds
    refine ⟨fun _ => by omega, fun _ => ⟨rfl, rfl, rfl⟩⟩

/-- An outage no connected peer outlives: the served report stays. -/
theorem outage_with_no_peer_connected :
    let report : ModelReport :=
      { name := "m", shortName := "m", dhtPrefix := "m", repository := "", numBlocks := 1, state := "broken"
        serverRows := [] }
    let cache : NodeCache :=
      { snapshot := { lastUpdated := 0, numPeers := 1, modelReports := [report] }, nodes := [] }
    let bootstrapPeers := ["/ip4/203.0.113.7/tcp/8000/p2p/QmBootstrap"]
    ∃ fresh, crawlOnce false .insertion (Rmpv.ofTable []) bootstrapPeers (.scripted []) .disabled = some fresh ∧
      (cache.publish fresh).snapshot.modelReports = [report] := by
  intro report cache bootstrapPeers
  have completes :
      (crawlOnce false .insertion (Rmpv.ofTable []) bootstrapPeers (.scripted []) .disabled).isSome = true := by
    decide +kernel
  obtain ⟨fresh, ran⟩ := Option.isSome_iff_exists.mp completes
  have states : (crawlOnce false .insertion (Rmpv.ofTable []) bootstrapPeers (.scripted []) .disabled).map
      (fun s => s.bootstrapStates) = some ["offline"] := by decide +kernel
  rw [ran] at states
  have dots : fresh.bootstrapStates = ["offline"] := Option.some.inj states
  have offline : ∀ state ∈ fresh.bootstrapStates, state = "offline" := by
    rw [dots]
    decide
  have reported : cache.snapshot.modelReports ≠ [] := List.cons_ne_nil _ _
  exact ⟨fresh, ran, ((outage_keeps_reports_iff ran offline reported).mpr
    ⟨by decide, Or.inr fun peers listed => by cases listed⟩).1⟩

/-- The bootstrap is dialed and answers nothing, and one connected peer speaks kad: the served report is
replaced by none. -/
theorem outage_blanks_reports :
    let report : ModelReport :=
      { name := "m", shortName := "m", dhtPrefix := "m", repository := "", numBlocks := 1, state := "broken"
        serverRows := [] }
    let cache : NodeCache :=
      { snapshot := { lastUpdated := 0, numPeers := 1, modelReports := [report] }, nodes := [] }
    let node : PeerEntry :=
      { peerId := "QmNode", agentVersion := none, protocols := ["/kwaai/kad/1.0.0"]
        conn := { addr := "/ip4/198.51.100.4/tcp/9000", direction := .inbound, via := none, dcutr := false } }
    let world : World := { World.scripted [] with listPeers := some [node] }
    let bootstrapPeers := ["/ip4/203.0.113.7/tcp/8000/p2p/QmBootstrap"]
    (crawlOnce false .insertion (Rmpv.ofTable []) bootstrapPeers world .disabled).map (fun fresh =>
      (fresh.bootstrapStates, (cache.publish fresh).snapshot.modelReports.length)) = some (["offline"], 0) := by
  decide +kernel

end KwaaiNetMap
