import KwaaiNetMap.Crawler.Observed
import KwaaiNetMap.Systems.Pool

/-!
`connect_discovered_peers` keeps up to eight dials in flight and collects their failures as they come
back, each dial under its own timeout. Whatever order they come back in, the pass collects what
`connectDiscoveredPeers` says, and it is over within `⌈peers / 8⌉` timeouts.
-/

namespace KwaaiNetMap
open Collections Systems

def peerDialTimeout (ticksPerSec : Nat) : Nat := 15 * ticksPerSec

def peerDialConcurrency : Nat := 8

def dialTargets (localPeerId : PeerId) (peerIds : BTreeSet String) : List PeerId :=
  peerIds.items.filter (· ≠ localPeerId)

/-- `timeout(PEER_DIAL_TIMEOUT, …)` is out of patience no sooner than its bound. -/
def dialLands (ticksPerSec elapsed : Nat) : Dial → Bool
  | .timeout => peerDialTimeout ticksPerSec ≤ elapsed
  | _ => true

/-- `buffer_unordered` over the dials: filled up before it waits, and polled until nothing is ready. -/
def dialStep (ticksPerSec : Nat) : Pool PeerId Dial → PoolEvent Dial → Option (Pool PeerId Dial) :=
  poolStep peerDialConcurrency (peerDialTimeout ticksPerSec) (dialLands ticksPerSec)

def dialsFrom (begun : Nat) (localPeerId : PeerId) (peerIds : BTreeSet String) : Pool PeerId Dial :=
  Pool.start begun (dialTargets localPeerId peerIds)

def collectError (errors : BTreeMap String String) (landed : PeerId × Dial) : BTreeMap String String :=
  match dialError landed.2 with
  | some err => errors.insert landed.1 err
  | none => errors

def collectErrors (landed : List (PeerId × Dial)) : BTreeMap String String :=
  landed.foldl collectError ∅

theorem dialTargets_nodup (localPeerId : PeerId) (peerIds : BTreeSet String) :
    (dialTargets localPeerId peerIds).Nodup :=
  peerIds.items_nodup.filter _

theorem mem_dialTargets {localPeerId id : PeerId} {peerIds : BTreeSet String} :
    id ∈ dialTargets localPeerId peerIds ↔ id ∈ peerIds.items ∧ id ≠ localPeerId := by
  simp [dialTargets]

theorem connectDiscoveredPeers_eq (localPeerId : PeerId) (dial : PeerId → Dial) (peerIds : BTreeSet String) :
    connectDiscoveredPeers localPeerId dial peerIds =
      collectErrors ((dialTargets localPeerId peerIds).map fun id => (id, dial id)) := by
  rw [collectErrors, List.foldl_map]
  rfl

theorem get?_collectError (errors : BTreeMap String String) (landed : PeerId × Dial) (id : PeerId) :
    (collectError errors landed).get? id =
      if id = landed.1 then (dialError landed.2).or (errors.get? id) else errors.get? id := by
  unfold collectError
  cases dialError landed.2 with
  | none => simp
  | some err =>
    by_cases here : id = landed.1 <;> simp [here, BTreeMap.insert, BTreeMap.get?_upsert]

theorem get?_foldl_collectError (landed : List (PeerId × Dial)) (nodup : (landed.map Prod.fst).Nodup)
    (errors : BTreeMap String String) (id : PeerId) :
    (landed.foldl collectError errors).get? id = ((landed.lookup id).bind dialError).or (errors.get? id) := by
  induction landed generalizing errors with
  | nil => rfl
  | cons d landed ih =>
    obtain ⟨k, result⟩ := d
    rw [List.map_cons, List.nodup_cons] at nodup
    rw [List.foldl_cons, ih nodup.2, get?_collectError, lookup_cons_if]
    by_cases here : id = k
    · have absent : landed.lookup id = none := by
        rw [List.lookup_eq_none_iff]
        intro d member
        have key : d.1 ∈ landed.map Prod.fst := List.mem_map_of_mem member
        have other : d.1 ≠ k := fun same => nodup.1 (same ▸ key)
        simpa [here] using other.symm
      rw [if_pos here, if_pos here, absent]
      rfl
    · rw [if_neg here, if_neg here]

theorem get?_collectErrors {landed : List (PeerId × Dial)} (nodup : (landed.map Prod.fst).Nodup) (id : PeerId) :
    (collectErrors landed).get? id = (landed.lookup id).bind dialError := by
  rw [collectErrors, get?_foldl_collectError landed nodup]
  simp

theorem collectErrors_perm {landed landed' : List (PeerId × Dial)} (nodup : (landed.map Prod.fst).Nodup)
    (perm : landed'.Perm landed) : collectErrors landed' = collectErrors landed := by
  apply BTreeMap.ext_get?
  intro id
  have nodup' : (landed'.map Prod.fst).Nodup := (perm.map Prod.fst).nodup_iff.mpr nodup
  rw [get?_collectErrors nodup', get?_collectErrors nodup, lookup_perm nodup perm]

variable {ticksPerSec begun : Nat} {localPeerId : PeerId} {peerIds : BTreeSet String}
  {events : List (PoolEvent Dial)} {s : Pool PeerId Dial}

theorem dials_accounts (ran : run (dialStep ticksPerSec) (dialsFrom begun localPeerId peerIds) events = some s) :
    s.Accounts peerDialConcurrency (dialTargets localPeerId peerIds) :=
  run_accounts ran

theorem collected_of_finished (accounts : s.Accounts peerDialConcurrency (dialTargets localPeerId peerIds))
    (finished : s.Finished) {dial : PeerId → Dial} (ended : ∀ d ∈ s.done, dial d.1 = d.2) :
    collectErrors s.done = connectDiscoveredPeers localPeerId dial peerIds := by
  have landed := finished.landed accounts
  have recorded : s.done = (s.done.map Prod.fst).map fun id => (id, dial id) := by
    rw [List.map_map]
    refine (List.map_id _).symm.trans (List.map_congr_left fun d member => ?_)
    exact Prod.ext rfl (ended d member).symm
  have perm : s.done.Perm ((dialTargets localPeerId peerIds).map fun id => (id, dial id)) := by
    rw [recorded]
    exact landed.map _
  rw [connectDiscoveredPeers_eq]
  refine collectErrors_perm ?_ perm
  rw [List.map_map]
  simpa [Function.comp_def] using dialTargets_nodup localPeerId peerIds

theorem outcome_of_done (nodup : (s.done.map Prod.fst).Nodup) :
    ∀ d ∈ s.done, (s.done.lookup d.1).getD .timeout = d.2 := by
  intro d member
  rw [(mem_iff_lookup nodup d.1 d.2).mp member]
  rfl

/-- However the dials interleave, at most eight are in flight, each peer but the observer itself is dialed
at most once, and when all are back each was dialed and the failures are those of the pass. -/
theorem dials_interleave (ran : run (dialStep ticksPerSec) (dialsFrom begun localPeerId peerIds) events = some s) :
    s.flying.length ≤ 8 ∧ (s.done.map Prod.fst ++ s.flying.map Flight.task).Nodup ∧
      (∀ id ∈ s.done.map Prod.fst ++ s.flying.map Flight.task, id ∈ peerIds.items ∧ id ≠ localPeerId) ∧
      (s.Finished →
        (∀ id ∈ peerIds.items, id ≠ localPeerId → id ∈ s.done.map Prod.fst) ∧
        ∃ dial : PeerId → Dial, (∀ d ∈ s.done, dial d.1 = d.2) ∧
          collectErrors s.done = connectDiscoveredPeers localPeerId dial peerIds) := by
  have accounts := dials_accounts ran
  have split := accounts.split
  rw [← List.append_assoc] at split
  have nodup : (s.done.map Prod.fst ++ s.flying.map Flight.task).Nodup :=
    (List.nodup_append.mp (split.nodup_iff.mpr (dialTargets_nodup localPeerId peerIds))).1
  refine ⟨accounts.bounded, nodup, ?_, ?_⟩
  · intro id member
    exact mem_dialTargets.mp (split.subset (List.mem_append_left _ member))
  · intro finished
    have ended := outcome_of_done (List.nodup_append.mp nodup).1
    refine ⟨fun id known other => ?_, fun id => (s.done.lookup id).getD .timeout, ended,
      collected_of_finished accounts finished ended⟩
    exact (finished.landed accounts).symm.subset (mem_dialTargets.mpr ⟨known, other⟩)

theorem dials_interleave_two :
    ∃ dial : PeerId → Dial, (∀ d ∈ [("b", .ok), ("a", .err "refused")], dial d.1 = d.2) ∧
      collectErrors [("b", .ok), ("a", .err "refused")] =
        connectDiscoveredPeers "us" dial (BTreeSet.ofList ["a", "b", "us"]) :=
  ((dials_interleave (show run (dialStep 1) (dialsFrom 0 "us" (BTreeSet.ofList ["a", "b", "us"]))
    [.launch, .launch, .land 1 .ok, .land 0 (.err "refused")] = some _ from rfl)).2.2.2 ⟨rfl, rfl⟩).2

/-- The dials can always be run to their end, and the pass is over within `⌈peers / 8⌉` timeouts of its
start; when every dial times out, it takes all of that. -/
theorem dials_cost (ran : run (dialStep ticksPerSec) (dialsFrom begun localPeerId peerIds) events = some s) :
    (∃ later t, run (dialStep ticksPerSec) s later = some t ∧ t.Finished) ∧
      events.length ≤ 2 * (dialTargets localPeerId peerIds).length +
        rounds (dialTargets localPeerId peerIds).length 8 * (15 * ticksPerSec) ∧
      s.now ≤ begun + rounds (dialTargets localPeerId peerIds).length 8 * (15 * ticksPerSec) ∧
      (s.Finished → (∀ d ∈ s.done, d.2 = .timeout) →
        s.now = begun + rounds (dialTargets localPeerId peerIds).length 8 * (15 * ticksPerSec)) := by
  have workers : 0 < peerDialConcurrency := by decide
  refine ⟨?_, run_bounded workers ran, (run_timely workers ran).within, ?_⟩
  · exact run_completes workers ⟨.timeout, fun elapsed late => by simpa [dialLands] using late⟩ ran
  · intro finished silent
    refine finished_lockstep workers ran ?_ finished
    intro d member elapsed landed
    rw [silent d member] at landed
    exact of_decide_eq_true landed

/-- Nine peers none of which answers: the ninth dial begins when the window of eight is free again. -/
theorem dials_cost_nine :
    let peers := BTreeSet.ofList ["a", "b", "c", "d", "e", "f", "g", "h", "i"]
    let silence : List (PoolEvent Dial) := List.replicate 15 .tick
    let events := List.replicate 8 .launch ++ silence ++ List.replicate 8 (.land 0 .timeout) ++
      .launch :: silence ++ [.land 0 .timeout]
    ∃ s : Pool PeerId Dial, run (dialStep 1) (dialsFrom 0 "us" peers) events = some s ∧ s.now = 30 := by
  intro peers silence events
  have ends : (run (dialStep 1) (dialsFrom 0 "us" peers) events).map (fun s =>
      decide (s.waiting = [] ∧ s.flying = [] ∧ ∀ d ∈ s.done, d.2 = .timeout)) = some true := by decide +kernel
  obtain ⟨s, ran, settled⟩ := Option.map_eq_some_iff.mp ends
  obtain ⟨launched, landed, silent⟩ := of_decide_eq_true settled
  have cost := (dials_cost ran).2.2.2 ⟨launched, landed⟩ silent
  exact ⟨s, ran, cost.trans (by decide +kernel)⟩

end KwaaiNetMap
