import KwaaiNetMap.Reachability.Probe
import KwaaiNetMap.Systems.Runs

/-!
Only two events close a connection: its remote closing it, and a probe hanging up on its peer
(`step_effect`). `probe_spares_iff` reads off from the run which probes take nothing from the crawler.
-/

namespace KwaaiNetMap
open Systems

variable {leads : String → PeerId → Bool} {s t : Session} {e : Event}

def Swarm.callsTo (swarm : Swarm) (peer : PeerId) : Finset Call :=
  swarm.calls.filter fun c => c.link.peer = peer

def Moved (before : Swarm) (e : Event) (after : Swarm) : Prop :=
  (after.links = before.links ∧ after.nextId = before.nextId) ∨
    (∃ peer, after = before.opened peer) ∨
    ∃ l ∈ before.links, e = .remoteCloses l ∧ after = before.closed l

theorem moved_dialed (swarm : Swarm) (result : DialEnd) (e : Event) : Moved swarm e (swarm.dialed result) := by
  cases result with
  | reached peer =>
    change Moved swarm e (swarm.connect peer)
    unfold Swarm.connect
    split
    · exact Or.inl ⟨rfl, rfl⟩
    · exact Or.inr (Or.inl ⟨peer, rfl⟩)
  | failed message => exact Or.inl ⟨rfl, rfl⟩
  | timedOut => exact Or.inl ⟨rfl, rfl⟩

/-- What one event does: a hang-up closes every connection to its peer and abandons their calls; every
other event opens at most one connection, or closes the one its remote closed. -/
theorem step_effect (stepped : step leads s e = some t) :
    (∃ target, e = .probeHangsUp ∧ s.probe = .hangingUp target ∧
      t.swarm = s.swarm.disconnect target ∧ t.abandoned = s.abandoned ∪ s.swarm.callsTo target) ∨
    (e ≠ .probeHangsUp ∧ t.abandoned = s.abandoned ∧ Moved s.swarm e t.swarm) := by
  cases e with
  | probeDials result =>
    right
    simp only [step] at stepped
    split at stepped
    · split at stepped
      · obtain rfl := Option.some.inj stepped
        exact ⟨by simp, rfl, moved_dialed _ _ _⟩
      · cases stepped
    · cases stepped
  | probeHangsUp =>
    left
    simp only [step] at stepped
    split at stepped
    · rename_i target hanging
      obtain rfl := Option.some.inj stepped
      exact ⟨target, rfl, hanging, rfl, rfl⟩
    · cases stepped
  | crawlDials result =>
    obtain rfl := Option.some.inj stepped
    exact Or.inr ⟨by simp, rfl, moved_dialed _ _ _⟩
  | crawlCalls c =>
    right
    simp only [step] at stepped
    split at stepped
    · obtain rfl := Option.some.inj stepped
      exact ⟨by simp, rfl, Or.inl ⟨rfl, rfl⟩⟩
    · cases stepped
  | callEnds c =>
    right
    simp only [step] at stepped
    split at stepped
    · obtain rfl := Option.some.inj stepped
      exact ⟨by simp, rfl, Or.inl ⟨rfl, rfl⟩⟩
    · cases stepped
  | opens peer =>
    obtain rfl := Option.some.inj stepped
    exact Or.inr ⟨by simp, rfl, Or.inr (Or.inl ⟨peer, rfl⟩)⟩
  | remoteCloses l =>
    right
    simp only [step] at stepped
    split at stepped
    · rename_i up
      obtain rfl := Option.some.inj stepped
      exact ⟨by simp, rfl, Or.inr (Or.inr ⟨l, up, rfl, rfl⟩)⟩
    · cases stepped

/-! ### Connections -/

def Takes (l : Link) (s : Session) (e : Event) : Prop :=
  e = .remoteCloses l ∨ (e = .probeHangsUp ∧ s.probe = .hangingUp l.peer)

theorem step_keeps_link {l : Link} (up : l ∈ s.swarm.links) (stepped : step leads s e = some t) :
    l ∈ t.swarm.links ∨ Takes l s e := by
  rcases step_effect stepped with ⟨target, rfl, hanging, swarm, -⟩ | ⟨-, -, same | ⟨peer, swarm⟩ | ⟨k, -, rfl, swarm⟩⟩
  · by_cases ours : l.peer = target
    · exact Or.inr (Or.inr ⟨rfl, ours ▸ hanging⟩)
    · rw [swarm]
      exact Or.inl (Finset.mem_filter.mpr ⟨up, ours⟩)
  · exact Or.inl (same.1 ▸ up)
  · rw [swarm]
    exact Or.inl (Finset.mem_insert_of_mem up)
  · by_cases same : l = k
    · exact Or.inr (Or.inl (same ▸ rfl))
    · rw [swarm]
      exact Or.inl (Finset.mem_filter.mpr ⟨up, same⟩)

def Gone (l : Link) (s : Session) : Prop := l ∉ s.swarm.links ∧ l.id < s.swarm.nextId

theorem step_gone {l : Link} (gone : Gone l s) (stepped : step leads s e = some t) : Gone l t := by
  obtain ⟨down, old⟩ := gone
  unfold Gone
  rcases step_effect stepped with ⟨target, -, -, swarm, -⟩ | ⟨-, -, same | ⟨peer, swarm⟩ | ⟨k, -, -, swarm⟩⟩
  · rw [swarm]
    exact ⟨fun up => down (Finset.mem_filter.mp up).1, old⟩
  · rw [same.1, same.2]
    exact ⟨down, old⟩
  · rw [swarm]
    refine ⟨fun up => ?_, Nat.lt_succ_of_lt old⟩
    rcases Finset.mem_insert.mp up with rfl | up
    · exact Nat.lt_irrefl _ old
    · exact down up
  · rw [swarm]
    exact ⟨fun up => down (Finset.mem_filter.mp up).1, old⟩

theorem step_refuses_gone {l : Link} (gone : Gone l s) : step leads s (.remoteCloses l) = none :=
  if_neg gone.1

theorem hangUp_gone {l : Link} {target : PeerId} (hanging : s.probe = .hangingUp target)
    (old : l.id < s.swarm.nextId) (ours : l.peer = target)
    (stepped : step leads s .probeHangsUp = some t) : Gone l t := by
  rcases step_effect stepped with ⟨other, -, other_hanging, swarm, -⟩ | ⟨notHangUp, -⟩
  · rw [hanging] at other_hanging
    obtain rfl := Probe.hangingUp.inj other_hanging
    rw [Gone, swarm]
    exact ⟨fun up => (Finset.mem_filter.mp up).2 ours, old⟩
  · exact absurd rfl notHangUp

theorem step_nextId (stepped : step leads s e = some t) : s.swarm.nextId ≤ t.swarm.nextId := by
  rcases step_effect stepped with ⟨_, -, -, swarm, -⟩ | ⟨-, -, same | ⟨peer, swarm⟩ | ⟨k, -, -, swarm⟩⟩
  · rw [swarm]
    exact Nat.le_refl _
  · exact Nat.le_of_eq same.2.symm
  · rw [swarm]
    exact Nat.le_succ _
  · rw [swarm]
    exact Nat.le_refl _

theorem step_abandons (stepped : step leads s e = some t) {c : Call} (lost : c ∈ s.abandoned) :
    c ∈ t.abandoned := by
  rcases step_effect stepped with ⟨_, -, -, -, abandoned⟩ | ⟨-, abandoned, -⟩
  · rw [abandoned]
    exact Finset.mem_union_left _ lost
  · rw [abandoned]
    exact lost

theorem step_keeps_calls (none : s.abandoned = ∅) (stepped : step leads s e = some t) :
    t.abandoned = ∅ ∨ (e = .probeHangsUp ∧ ∃ target, s.probe = .hangingUp target ∧
      s.swarm.callsTo target ≠ ∅) := by
  rcases step_effect stepped with ⟨target, hangsUp, hanging, -, abandoned⟩ | ⟨-, abandoned, -⟩
  · by_cases quiet : s.swarm.callsTo target = ∅
    · rw [abandoned, none, quiet]
      exact Or.inl rfl
    · exact Or.inr ⟨hangsUp, target, hanging, quiet⟩
  · rw [abandoned]
    exact Or.inl none

/-! ### Whole runs -/

def run (leads : String → PeerId → Bool) (s : Session) (events : List Event) : Option Session :=
  Systems.run (step leads) s events

theorem hangUp_takes {start mid next final : Session} {before after : List Event} {l : Link}
    (up : l ∈ start.swarm.links) (first : run leads start before = some mid)
    (hanging : mid.probe = .hangingUp l.peer) (stepped : step leads mid .probeHangsUp = some next)
    (rest : run leads next after = some final) : l ∉ final.swarm.links ∧ .remoteCloses l ∉ after := by
  have old : l.id < mid.swarm.nextId :=
    run_invariant (I := fun s => l.id < s.swarm.nextId)
      (fun _ _ _ old stepped => Nat.lt_of_lt_of_le old (step_nextId stepped)) first (start.swarm.fresh l up)
  have gone := hangUp_gone hanging old rfl stepped
  constructor
  · exact (run_invariant (fun _ _ _ gone stepped => step_gone gone stepped) rest gone).1
  · refine run_excludes (I := Gone l) ?_ ?_ rest gone
    · exact fun _ _ _ gone stepped => step_gone gone stepped
    · exact fun _ gone => step_refuses_gone gone

theorem hangUp_abandons {mid next final : Session} {after : List Event} {target : PeerId} {c : Call}
    (carried : c ∈ mid.swarm.callsTo target) (hanging : mid.probe = .hangingUp target)
    (stepped : step leads mid .probeHangsUp = some next) (rest : run leads next after = some final) :
    c ∈ final.abandoned := by
  have lost : c ∈ next.abandoned := by
    rcases step_effect stepped with ⟨other, -, other_hanging, -, abandoned⟩ | ⟨notHangUp, -⟩
    · rw [hanging] at other_hanging
      obtain rfl := Probe.hangingUp.inj other_hanging
      rw [abandoned]
      exact Finset.mem_union_right _ carried
    · exact absurd rfl notHangUp
  exact run_invariant (I := fun s => c ∈ s.abandoned)
    (fun _ _ _ lost stepped => step_abandons stepped lost) rest lost

/-- A probe takes nothing from anyone else on the swarm: the connections it found stay unless their
remotes close them, and no call is lost to its hang-up. -/
def Spares (swarm : Swarm) (events : List Event) (final : Session) : Prop :=
  (∀ l ∈ swarm.links, .remoteCloses l ∉ events → l ∈ final.swarm.links) ∧ final.abandoned = ∅

/-- Exactly when a probe spares everyone else, over every interleaving: when it hangs up, if it ever
does, the connections its peer had at the start have all been closed by their remote, and no call is
outstanding on any connection to that peer. -/
theorem probe_spares_iff {swarm : Swarm} {reach : ReachabilityCache} {parsePeerId : String → Option PeerId}
    {now : Nat} {peerId : String} {addrs : List String} {events : List Event} {final : Session}
    (ran : run leads { swarm, probe := reach.check parsePeerId now peerId addrs } events = some final) :
    Spares swarm events final ↔
      ∀ before after mid target, events = before ++ .probeHangsUp :: after →
        run leads { swarm, probe := reach.check parsePeerId now peerId addrs } before = some mid →
        mid.probe = .hangingUp target →
          (∀ l ∈ swarm.links, l.peer = target → .remoteCloses l ∈ before) ∧
            mid.swarm.callsTo target = ∅ := by
  constructor
  · rintro ⟨links, calls⟩ before after mid target split first hanging
    rw [split] at ran
    obtain ⟨mid', first', rest⟩ := (run_append (step leads)).mp ran
    obtain rfl : mid = mid' := Option.some.inj (first.symm.trans first')
    obtain ⟨next, stepped, rest⟩ := (run_cons (step leads)).mp rest
    constructor
    · rintro l up rfl
      by_contra stays
      obtain ⟨gone, never⟩ := hangUp_takes up first hanging stepped rest
      have closedBy : .remoteCloses l ∉ events := by
        rw [split]
        simp [stays, never]
      exact gone (links l up closedBy)
    · by_contra outstanding
      obtain ⟨c, carried⟩ := Finset.nonempty_iff_ne_empty.mpr outstanding
      have lost := hangUp_abandons carried hanging stepped rest
      rw [calls] at lost
      exact absurd lost (Finset.notMem_empty c)
  · intro quiet
    constructor
    · intro l up open_
      rcases run_kept_or_taken (P := fun s => l ∈ s.swarm.links)
        (fun _ _ _ up stepped => step_keeps_link up stepped) ran up with
        still | ⟨before, e, after, mid, split, first, -, closedBy | ⟨rfl, hanging⟩⟩
      · exact still
      · exact absurd (by rw [split, closedBy]; simp) open_
      · have closedBy := (quiet before after mid l.peer split first hanging).1 l up rfl
        exact absurd (by rw [split]; simp [closedBy]) open_
    · rcases run_kept_or_taken (P := fun s => s.abandoned = ∅)
        (fun _ _ _ none stepped => step_keeps_calls none stepped) ran rfl with
        none | ⟨before, e, after, mid, split, first, -, rfl, target, hanging, outstanding⟩
      · exact none
      · exact absurd (quiet before after mid target split first hanging).2 outstanding

theorem probe_spares_unrelated_bootstrap :
    let bootstrap : Link := { id := 0, peer := "QmdY37DkF5HXMRWZLyS2hKx9" }
    let swarm : Swarm :=
      { links := {bootstrap}, calls := ∅, nextId := 1, fresh := by decide, carried := by simp }
    let events : List Event :=
      [.crawlCalls { id := 0, link := bootstrap }, .probeDials (.reached "12D3KooWEyoppNCUx8Yx66oV"), .probeHangsUp]
    let probe := (ReachabilityCache.mk ∅).check some 0 "12D3KooWEyoppNCUx8Yx66oV" []
    ∃ final, run (fun addr peer => trailingPeerId addr = some peer) { swarm, probe } events = some final ∧
      Spares swarm events final := by
  intro bootstrap swarm events probe
  let final := (run (fun addr peer => trailingPeerId addr = some peer) { swarm, probe } events).get rfl
  have ran : run (fun addr peer => trailingPeerId addr = some peer) { swarm, probe } events = some final := rfl
  refine ⟨final, ran, (probe_spares_iff ran).mpr ?_⟩
  intro before after mid target split first hanging
  rcases before with _ | ⟨a, _ | ⟨b, _ | ⟨c, before⟩⟩⟩ <;> simp [events] at split
  obtain ⟨rfl, rfl, rfl⟩ := split
  obtain rfl := Option.some.inj first
  obtain rfl := Probe.hangingUp.inj hanging
  decide

/-- Probing a connected bootstrap opens nothing, closes the crawler's connection to it, and abandons the
query outstanding there. -/
theorem probe_takes_bootstrap_connection :
    let bootstrap : Link := { id := 0, peer := "QmdY37DkF5HXMRWZLyS2hKx9" }
    let query : Call := { id := 0, link := bootstrap }
    let swarm : Swarm :=
      { links := {bootstrap}, calls := ∅, nextId := 1, fresh := by decide, carried := by simp }
    let events : List Event := [.crawlCalls query, .probeDials (.reached bootstrap.peer), .probeHangsUp]
    let probe := (ReachabilityCache.mk ∅).check some 0 bootstrap.peer []
    ∃ final, run (fun addr peer => trailingPeerId addr = some peer) { swarm, probe } events = some final ∧
      .remoteCloses bootstrap ∉ events ∧ bootstrap ∉ final.swarm.links ∧ query ∈ final.abandoned := by
  exact ⟨_, rfl, by decide, by decide, by decide⟩

end KwaaiNetMap
