import KwaaiNetMap.Reachability.Probe
import KwaaiNetMap.Systems.Runs

/-!
`Reachability.check` looks the peer up, dials on a miss, and inserts the verdict once the dial is over, so
requests for one peer interleave. Nothing marks a dial that is under way: the cache bounds the dials of the
requests that look up after the insert, and of no others (`dials_bounded`, `overlap_dials_twice`).
-/

namespace KwaaiNetMap
open Collections Systems

/-! ### The steps of one request -/

def ReachabilityCache.fresh (reach : ReachabilityCache) (ttl now : Nat) (peerId : String) : Option (Nat × Verdict) :=
  (reach.cache.get? peerId).filter fun entry => now - entry.1 < ttl

def ReachabilityCache.insert (reach : ReachabilityCache) (peerId : String) (now : Nat) (verdict : Verdict) :
    ReachabilityCache :=
  { cache := reach.cache.insert peerId (now, verdict) }

inductive ProbeMove where
  | attemptEnds (result : DialEnd)
  | hangsUp
  deriving DecidableEq

def Probe.next : Probe → ProbeMove → Option Probe
  | .dialing target _ rest, .attemptEnds result => some (.dialed target rest result)
  | .hangingUp _, .hangsUp => some (.done { ok := true })
  | _, _ => none

inductive Answer where
  | probed (begun : Nat) (verdict : Verdict) (inserted : Nat)
  | cached (verdict : Verdict) (reached served : Nat)
  deriving DecidableEq

inductive Stage where
  | arrived
  | missed
  | probing (begun : Nat) (probe : Probe)
  | answered (answer : Answer)
  deriving DecidableEq

structure Request where
  peerId : String
  addrs : List String
  stage : Stage := .arrived
  deriving DecidableEq

inductive Action where
  | looksUp
  | dials
  | probes (move : ProbeMove)
  | inserts
  deriving DecidableEq

def Request.act (parsePeerId : String → Option PeerId) (ttl now : Nat) (reach : ReachabilityCache) (q : Request) :
    Action → Option (Stage × ReachabilityCache)
  | .looksUp =>
    match q.stage with
    | .arrived =>
      match reach.fresh ttl now q.peerId with
      | some (reached, verdict) => some (.answered (.cached verdict reached now), reach)
      | none => some (.missed, reach)
    | _ => none
  | .dials =>
    match q.stage with
    | .missed => some (.probing now (.dial parsePeerId q.peerId q.addrs), reach)
    | _ => none
  | .probes move =>
    match q.stage with
    | .probing begun probe => (probe.next move).map fun probe => (.probing begun probe, reach)
    | _ => none
  | .inserts =>
    match q.stage with
    | .probing begun (.done verdict) =>
      some (.answered (.probed begun verdict now), reach.insert q.peerId now verdict)
    | _ => none

/-! ### Any number of them -/

/-- The clock, the cache, and every request so far. A request whose client hangs up takes no further step. -/
structure Desk where
  now : Nat
  reach : ReachabilityCache
  requests : Nat → Option Request

def Desk.new (now : Nat) : Desk := { now, reach := { cache := ∅ }, requests := fun _ => none }

inductive DeskEvent where
  | passes (ticks : Nat)
  | arrives (r : Nat) (peerId : String) (addrs : List String)
  | acts (r : Nat) (action : Action)
  deriving DecidableEq

def Desk.put (s : Desk) (r : Nat) (q : Request) (reach : ReachabilityCache) : Desk :=
  { s with requests := fun k => if k = r then some q else s.requests k, reach }

def deskStep (parsePeerId : String → Option PeerId) (ttl : Nat) (s : Desk) : DeskEvent → Option Desk
  | .passes ticks => some { s with now := s.now + ticks }
  | .arrives r peerId addrs =>
    match s.requests r with
    | none => some (s.put r { peerId, addrs } s.reach)
    | some _ => none
  | .acts r action =>
    match s.requests r with
    | none => none
    | some q => (q.act parsePeerId ttl s.now s.reach action).map fun (stage, reach) => s.put r { q with stage } reach

/-! ### What a step does -/

section
variable {parsePeerId : String → Option PeerId} {ttl now : Nat} {reach reach' : ReachabilityCache} {q : Request}
  {stage : Stage}

theorem check_eq (peerId : String) (addrs : List String) :
    reach.check parsePeerId now peerId addrs =
      match reach.fresh cacheTtlSecs now peerId with
      | some (_, verdict) => .done verdict
      | none => .dial parsePeerId peerId addrs := by
  unfold ReachabilityCache.check ReachabilityCache.fresh
  cases reach.cache.get? peerId with
  | none => rfl
  | some entry =>
    rw [Option.filter_some]
    by_cases young : now - entry.1 < cacheTtlSecs <;> simp [young]

theorem step_attempt {leads : String → PeerId → Bool} {s t : Session} {result : DialEnd}
    (stepped : step leads s (.probeDials result) = some t) : s.probe.next (.attemptEnds result) = some t.probe := by
  simp only [step] at stepped
  split at stepped
  · rename_i target addr rest dialing
    split at stepped
    · obtain rfl := Option.some.inj stepped
      rw [dialing]
      rfl
    · cases stepped
  · cases stepped

theorem step_hangUp {leads : String → PeerId → Bool} {s t : Session}
    (stepped : step leads s .probeHangsUp = some t) : s.probe.next .hangsUp = some t.probe := by
  simp only [step] at stepped
  split at stepped
  · rename_i target hanging
    obtain rfl := Option.some.inj stepped
    rw [hanging]
    rfl
  · cases stepped

theorem step_probe {leads : String → PeerId → Bool} {s t : Session} {e : Event} (stepped : step leads s e = some t) :
    t.probe = s.probe ∨ ∃ move, s.probe.next move = some t.probe := by
  cases e with
  | probeDials result => exact Or.inr ⟨_, step_attempt stepped⟩
  | probeHangsUp => exact Or.inr ⟨_, step_hangUp stepped⟩
  | crawlDials result => exact Or.inl (Option.some.inj stepped ▸ rfl)
  | opens peer => exact Or.inl (Option.some.inj stepped ▸ rfl)
  | crawlCalls c =>
    obtain ⟨up, same⟩ := Option.dite_none_right_eq_some.mp stepped
    exact Or.inl (Option.some.inj same ▸ rfl)
  | callEnds c =>
    obtain ⟨-, same⟩ := Option.ite_none_right_eq_some.mp stepped
    exact Or.inl (Option.some.inj same ▸ rfl)
  | remoteCloses l =>
    obtain ⟨-, same⟩ := Option.ite_none_right_eq_some.mp stepped
    exact Or.inl (Option.some.inj same ▸ rfl)

inductive Acted (parsePeerId : String → Option PeerId) (ttl now : Nat) (reach : ReachabilityCache) (q : Request) :
    Action → Stage → ReachabilityCache → Prop
  | hit {reached : Nat} {verdict : Verdict} (arrived : q.stage = .arrived)
      (fresh : reach.fresh ttl now q.peerId = some (reached, verdict)) :
      Acted parsePeerId ttl now reach q .looksUp (.answered (.cached verdict reached now)) reach
  | miss (arrived : q.stage = .arrived) (stale : reach.fresh ttl now q.peerId = none) :
      Acted parsePeerId ttl now reach q .looksUp .missed reach
  | dialed (missed : q.stage = .missed) :
      Acted parsePeerId ttl now reach q .dials (.probing now (.dial parsePeerId q.peerId q.addrs)) reach
  | probed {begun : Nat} {probe next : Probe} {move : ProbeMove} (probing : q.stage = .probing begun probe)
      (moved : probe.next move = some next) :
      Acted parsePeerId ttl now reach q (.probes move) (.probing begun next) reach
  | inserted {begun : Nat} {verdict : Verdict} (done : q.stage = .probing begun (.done verdict)) :
      Acted parsePeerId ttl now reach q .inserts (.answered (.probed begun verdict now))
        (reach.insert q.peerId now verdict)

theorem acted_of_act {action : Action} (acted : q.act parsePeerId ttl now reach action = some (stage, reach')) :
    Acted parsePeerId ttl now reach q action stage reach' := by
  cases action with
  | looksUp =>
    simp only [Request.act] at acted
    split at acted
    · rename_i arrived
      split at acted
      · rename_i fresh
        obtain ⟨rfl, rfl⟩ := Prod.mk.inj (Option.some.inj acted)
        exact .hit arrived fresh
      · rename_i stale
        obtain ⟨rfl, rfl⟩ := Prod.mk.inj (Option.some.inj acted)
        exact .miss arrived stale
    · cases acted
  | dials =>
    simp only [Request.act] at acted
    split at acted
    · rename_i missed
      obtain ⟨rfl, rfl⟩ := Prod.mk.inj (Option.some.inj acted)
      exact .dialed missed
    · cases acted
  | probes move =>
    simp only [Request.act] at acted
    split at acted
    · rename_i probing
      obtain ⟨next, moved, same⟩ := Option.map_eq_some_iff.mp acted
      obtain ⟨rfl, rfl⟩ := Prod.mk.inj same
      exact .probed probing moved
    · cases acted
  | inserts =>
    simp only [Request.act] at acted
    split at acted
    · rename_i done
      obtain ⟨rfl, rfl⟩ := Prod.mk.inj (Option.some.inj acted)
      exact .inserted done
    · cases acted

theorem deskStep_cases {s t : Desk} {e : DeskEvent} (stepped : deskStep parsePeerId ttl s e = some t) :
    (∃ ticks, e = .passes ticks ∧ t = { s with now := s.now + ticks }) ∨
    (∃ r peerId addrs, e = .arrives r peerId addrs ∧ s.requests r = none ∧ t = s.put r { peerId, addrs } s.reach) ∨
    ∃ r action q stage reach, e = .acts r action ∧ s.requests r = some q ∧
      q.act parsePeerId ttl s.now s.reach action = some (stage, reach) ∧ t = s.put r { q with stage } reach := by
  cases e with
  | passes ticks =>
    exact Or.inl ⟨ticks, rfl, (Option.some.inj stepped).symm⟩
  | arrives r peerId addrs =>
    simp only [deskStep] at stepped
    split at stepped
    · rename_i fresh
      exact Or.inr (Or.inl ⟨r, peerId, addrs, rfl, fresh, (Option.some.inj stepped).symm⟩)
    · cases stepped
  | acts r action =>
    simp only [deskStep] at stepped
    split at stepped
    · cases stepped
    · rename_i q found
      obtain ⟨⟨stage, reach⟩, acted, same⟩ := Option.map_eq_some_iff.mp stepped
      exact Or.inr (Or.inr ⟨r, action, q, stage, reach, rfl, found, acted, same.symm⟩)

theorem deskStep_acts {s : Desk} {r : Nat} {action : Action} (known : s.requests r = some q)
    (acted : q.act parsePeerId ttl s.now s.reach action = some (stage, reach)) :
    deskStep parsePeerId ttl s (.acts r action) = some (s.put r { q with stage } reach) := by
  simp only [deskStep, known, acted]
  rfl

theorem deskStep_dials {s : Desk} {r : Nat} (known : s.requests r = some q) (missed : q.stage = .missed) :
    deskStep parsePeerId ttl s (.acts r .dials) =
      some (s.put r { q with stage := .probing s.now (.dial parsePeerId q.peerId q.addrs) } s.reach) := by
  refine deskStep_acts known ?_
  simp only [Request.act, missed]

end

/-! ### Where answers come from -/

def Request.DialedTo (parsePeerId : String → Option PeerId) (q : Request) (verdict : Verdict) : Prop :=
  ∃ moves, Systems.run Probe.next (.dial parsePeerId q.peerId q.addrs) moves = some (.done verdict)

def Desk.Inserted (parsePeerId : String → Option PeerId) (s : Desk) (peerId : String) (verdict : Verdict)
    (reached : Nat) : Prop :=
  ∃ r q begun, s.requests r = some q ∧ q.peerId = peerId ∧ q.stage = .answered (.probed begun verdict reached) ∧
    q.DialedTo parsePeerId verdict

/-- The answer is that of the request's own dial, or a verdict younger than `ttl` that some request dialed for. -/
def Desk.Accounts (parsePeerId : String → Option PeerId) (ttl : Nat) (s : Desk) (q : Request) : Answer → Prop
  | .probed begun verdict inserted => begun ≤ inserted ∧ q.DialedTo parsePeerId verdict
  | .cached verdict reached served => reached ≤ served ∧ served < reached + ttl ∧
      s.Inserted parsePeerId q.peerId verdict reached

def ReachabilityCache.Holds (reach : ReachabilityCache) (peerId : String) (inserted : Nat) : Prop :=
  ∃ reached verdict, reach.cache.get? peerId = some (reached, verdict) ∧ inserted ≤ reached

def Desk.Sound (parsePeerId : String → Option PeerId) (ttl : Nat) (s : Desk) (q : Request) : Stage → Prop
  | .probing begun probe => begun ≤ s.now ∧
      ∃ moves, Systems.run Probe.next (.dial parsePeerId q.peerId q.addrs) moves = some probe
  | .answered answer => s.Accounts parsePeerId ttl q answer ∧
      ∀ begun verdict inserted, answer = .probed begun verdict inserted → s.reach.Holds q.peerId inserted
  | _ => True

structure Desk.Accounted (parsePeerId : String → Option PeerId) (ttl : Nat) (s : Desk) : Prop where
  entries : ∀ peerId reached verdict, s.reach.cache.get? peerId = some (reached, verdict) →
    reached ≤ s.now ∧ s.Inserted parsePeerId peerId verdict reached
  requests : ∀ r q, s.requests r = some q → s.Sound parsePeerId ttl q q.stage

section
variable {parsePeerId : String → Option PeerId} {ttl : Nat} {s t : Desk} {q : Request}

structure Desk.Later (parsePeerId : String → Option PeerId) (s t : Desk) : Prop where
  now : s.now ≤ t.now
  inserted : ∀ peerId verdict reached, s.Inserted parsePeerId peerId verdict reached →
    t.Inserted parsePeerId peerId verdict reached
  holds : ∀ peerId inserted, s.reach.Holds peerId inserted → t.reach.Holds peerId inserted

theorem Desk.Later.sound (later : s.Later parsePeerId t) {stage : Stage} (sound : s.Sound parsePeerId ttl q stage) :
    t.Sound parsePeerId ttl q stage := by
  cases stage with
  | arrived => trivial
  | missed => trivial
  | probing begun probe =>
    obtain ⟨past, own⟩ := sound
    exact ⟨Nat.le_trans past later.now, own⟩
  | answered answer =>
    obtain ⟨accounts, held⟩ := sound
    refine ⟨?_, fun begun verdict inserted probed => later.holds _ _ (held begun verdict inserted probed)⟩
    cases answer with
    | probed begun verdict inserted => exact accounts
    | cached verdict reached served =>
      obtain ⟨before, young, source⟩ := accounts
      exact ⟨before, young, later.inserted _ _ _ source⟩

theorem fresh_eq_some {reach : ReachabilityCache} {now reached : Nat} {peerId : String} {verdict : Verdict} :
    reach.fresh ttl now peerId = some (reached, verdict) ↔
      reach.cache.get? peerId = some (reached, verdict) ∧ now - reached < ttl := by
  simp [ReachabilityCache.fresh, Option.filter_eq_some_iff]

theorem stale_of_holds {reach : ReachabilityCache} {now inserted : Nat} {peerId : String} (past : inserted ≤ now)
    (held : reach.Holds peerId inserted) (stale : reach.fresh ttl now peerId = none) : inserted + ttl ≤ now := by
  obtain ⟨reached, verdict, found, after⟩ := held
  have old : ¬ now - reached < ttl := by
    intro young
    rw [fresh_eq_some.mpr ⟨found, young⟩] at stale
    cases stale
  omega

theorem Acted.unanswered {now : Nat} {reach reach' : ReachabilityCache} {action : Action} {stage : Stage}
    (acted : Acted parsePeerId ttl now reach q action stage reach') (answer : Answer) : q.stage ≠ .answered answer := by
  intro answered
  cases acted with
  | hit arrived => exact nomatch arrived.symm.trans answered
  | miss arrived => exact nomatch arrived.symm.trans answered
  | dialed missed => exact nomatch missed.symm.trans answered
  | probed probing => exact nomatch probing.symm.trans answered
  | inserted done => exact nomatch done.symm.trans answered

theorem Acted.holds {now : Nat} {reach reach' : ReachabilityCache} {action : Action} {stage : Stage}
    (acted : Acted parsePeerId ttl now reach q action stage reach')
    (past : ∀ peerId reached verdict, reach.cache.get? peerId = some (reached, verdict) → reached ≤ now)
    {peerId : String} {inserted : Nat} (held : reach.Holds peerId inserted) : reach'.Holds peerId inserted := by
  cases acted with
  | hit => exact held
  | miss => exact held
  | dialed => exact held
  | probed => exact held
  | inserted =>
    obtain ⟨reached, verdict, found, after⟩ := held
    unfold ReachabilityCache.Holds ReachabilityCache.insert
    simp only [HashMap.get?_insert]
    by_cases same : peerId = q.peerId
    · rw [if_pos same]
      exact ⟨now, _, rfl, Nat.le_trans after (past _ _ _ found)⟩
    · rw [if_neg same]
      exact ⟨reached, verdict, found, after⟩

theorem mem_put {r k : Nat} {other : Request} {reach : ReachabilityCache}
    (known : (s.put r q reach).requests k = some other) :
    (k = r ∧ other = q) ∨ (k ≠ r ∧ s.requests k = some other) := by
  by_cases same : k = r
  · exact Or.inl ⟨same, (Option.some.inj ((if_pos same).symm.trans known)).symm⟩
  · exact Or.inr ⟨same, (if_neg same).symm.trans known⟩

theorem later_put {r : Nat} {reach : ReachabilityCache}
    (unanswered : ∀ old, s.requests r = some old → ∀ answer, old.stage ≠ .answered answer)
    (holds : ∀ peerId inserted, s.reach.Holds peerId inserted → reach.Holds peerId inserted) :
    s.Later parsePeerId (s.put r q reach) := by
  refine ⟨Nat.le_refl _, ?_, holds⟩
  rintro peerId verdict reached ⟨k, other, begun, found, named, answered, own⟩
  refine ⟨k, other, begun, ?_, named, answered, own⟩
  have differs : k ≠ r := by
    rintro rfl
    exact unanswered other found _ answered
  exact (if_neg differs).trans found

theorem deskStep_later {e : DeskEvent} (accounted : s.Accounted parsePeerId ttl)
    (stepped : deskStep parsePeerId ttl s e = some t) : s.Later parsePeerId t := by
  rcases deskStep_cases stepped with ⟨ticks, -, rfl⟩ | ⟨r, peerId, addrs, -, free, rfl⟩ |
    ⟨r, action, old, stage, reach, -, found, acted, rfl⟩
  · exact ⟨Nat.le_add_right _ _, fun _ _ _ source => source, fun _ _ held => held⟩
  · refine later_put ?_ fun _ _ held => held
    intro old found
    rw [free] at found
    cases found
  · have acted := acted_of_act acted
    refine later_put ?_ fun _ _ held => acted.holds (fun _ _ _ entry => (accounted.entries _ _ _ entry).1) held
    intro other same
    obtain rfl := Option.some.inj (found.symm.trans same)
    exact acted.unanswered

theorem Acted.sound {r : Nat} {action : Action} {stage : Stage} {reach : ReachabilityCache}
    (accounted : s.Accounted parsePeerId ttl) (found : s.requests r = some q)
    (acted : Acted parsePeerId ttl s.now s.reach q action stage reach)
    (later : s.Later parsePeerId (s.put r { q with stage } reach)) :
    (s.put r { q with stage } reach).Sound parsePeerId ttl { q with stage } stage := by
  have sound := accounted.requests r q found
  cases acted with
  | @hit reached verdict arrived fresh =>
    obtain ⟨entry, young⟩ := fresh_eq_some.mp fresh
    obtain ⟨past, source⟩ := accounted.entries _ _ _ entry
    exact ⟨⟨past, by omega, later.inserted _ _ _ source⟩, fun _ _ _ probed => by cases probed⟩
  | miss => trivial
  | dialed => exact ⟨Nat.le_refl _, [], rfl⟩
  | @probed begun probe next move probing moved =>
    rw [probing] at sound
    obtain ⟨past, moves, own⟩ := sound
    refine ⟨past, moves ++ [move], (run_append _).mpr ⟨probe, own, ?_⟩⟩
    exact (run_cons _).mpr ⟨next, moved, rfl⟩
  | @inserted begun verdict done =>
    rw [done] at sound
    refine ⟨sound, fun _ _ _ probed => ?_⟩
    cases probed
    exact ⟨s.now, verdict, (HashMap.get?_insert _ _ _ _).trans (if_pos rfl), Nat.le_refl _⟩

theorem deskStep_accounted {e : DeskEvent} (accounted : s.Accounted parsePeerId ttl)
    (stepped : deskStep parsePeerId ttl s e = some t) : t.Accounted parsePeerId ttl := by
  have later := deskStep_later accounted stepped
  -- an entry that was there before the step is accounted for after it
  have before {peerId : String} {reached : Nat} {verdict : Verdict}
      (entry : s.reach.cache.get? peerId = some (reached, verdict)) :
      reached ≤ t.now ∧ t.Inserted parsePeerId peerId verdict reached := by
    obtain ⟨past, source⟩ := accounted.entries _ _ _ entry
    exact ⟨Nat.le_trans past later.now, later.inserted _ _ _ source⟩
  rcases deskStep_cases stepped with ⟨ticks, -, rfl⟩ | ⟨r, peerId, addrs, -, free, rfl⟩ |
    ⟨r, action, old, stage, reach, -, found, acted, rfl⟩
  · exact ⟨fun _ _ _ entry => before entry, fun k q known => later.sound (accounted.requests k q known)⟩
  · refine ⟨fun _ _ _ entry => before entry, fun k q known => ?_⟩
    rcases mem_put known with ⟨-, rfl⟩ | ⟨-, known⟩
    · trivial
    · exact later.sound (accounted.requests k q known)
  · have acted := acted_of_act acted
    constructor
    · intro peerId reached verdict entry
      cases acted with
      | hit => exact before entry
      | miss => exact before entry
      | dialed => exact before entry
      | probed => exact before entry
      | @inserted begun own done =>
        by_cases same : peerId = old.peerId
        · obtain ⟨rfl, rfl⟩ := Prod.mk.inj (Option.some.inj
            (((HashMap.get?_insert _ _ _ _).trans (if_pos same)).symm.trans entry))
          have sound := accounted.requests r old found
          rw [done] at sound
          exact ⟨Nat.le_refl _, r, _, begun, if_pos rfl, same.symm, rfl, sound.2⟩
        · exact before (((HashMap.get?_insert _ _ _ _).trans (if_neg same)).symm.trans entry)
    · intro k q known
      rcases mem_put known with ⟨-, rfl⟩ | ⟨-, known⟩
      · exact acted.sound accounted found later
      · exact later.sound (accounted.requests k q known)

end

/-! ### Dials apart -/

inductive Launch where
  | no
  | pending
  | begun (instant : Nat)

def Stage.launch : Stage → Launch
  | .missed => .pending
  | .probing begun _ => .begun begun
  | .answered (.probed begun _ _) => .begun begun
  | _ => .no

def Launch.Apart (ttl now : Nat) : Launch → Launch → Prop
  | .no, _ => True
  | _, .no => True
  | .pending, .pending => False
  | .pending, .begun t => t + ttl ≤ now
  | .begun t, .pending => t + ttl ≤ now
  | .begun t, .begun u => t + ttl ≤ u ∨ u + ttl ≤ t

theorem Launch.Apart.symm {ttl now : Nat} {a b : Launch} (apart : a.Apart ttl now b) : b.Apart ttl now a := by
  cases a <;> cases b <;> first | exact apart | exact Or.symm apart

theorem Launch.Apart.later {ttl now now' : Nat} {a b : Launch} (apart : a.Apart ttl now b) (passes : now ≤ now') :
    a.Apart ttl now' b := by
  cases a <;> cases b <;> first | exact apart | exact Nat.le_trans apart passes

/-- The instant the request's dial sequence begins; a text that is no peer id is not dialed. -/
def Request.dialedAt (parsePeerId : String → Option PeerId) (q : Request) : Option Nat :=
  match q.stage.launch with
  | .begun t => if (parsePeerId q.peerId).isSome then some t else none
  | _ => none

/-- The request has missed and may yet insert a verdict, having begun its dial, if at all, less than `ttl` ago. -/
def Stage.Outstanding (ttl now : Nat) : Stage → Prop
  | .missed => True
  | .probing begun _ => now < begun + ttl
  | _ => False

/-- No lookup of the peer misses while another request for it is outstanding. -/
def MissesAlone (parsePeerId : String → Option PeerId) (ttl : Nat) (peerId : String) (s : Desk) (e : DeskEvent) :
    Prop :=
  ∀ r q, e = .acts r .looksUp → s.requests r = some q → q.peerId = peerId → (parsePeerId peerId).isSome = true →
    s.reach.fresh ttl s.now peerId = none →
      ∀ k other, k ≠ r → s.requests k = some other → other.peerId = peerId → ¬ other.stage.Outstanding ttl s.now

/-- In any window shorter than `ttl` after a dial sequence for the peer begins, no other does; every answer is from
the request's own dial, or a cached verdict younger than `ttl`. -/
structure DialsBounded (parsePeerId : String → Option PeerId) (ttl : Nat) (peerId : String) (s : Desk) : Prop where
  one_dial : ∀ r k q other t u, s.requests r = some q → s.requests k = some other → q.peerId = peerId →
    other.peerId = peerId → q.dialedAt parsePeerId = some t → other.dialedAt parsePeerId = some u →
      t ≤ u → u < t + ttl → k = r
  answers : ∀ r q answer, s.requests r = some q → q.peerId = peerId → q.stage = .answered answer →
    s.Accounts parsePeerId ttl q answer

def Desk.Apart (parsePeerId : String → Option PeerId) (ttl : Nat) (peerId : String) (s : Desk) : Prop :=
  ∀ r k q other, r ≠ k → s.requests r = some q → s.requests k = some other → q.peerId = peerId →
    other.peerId = peerId → (parsePeerId peerId).isSome = true → q.stage.launch.Apart ttl s.now other.stage.launch

section
variable {parsePeerId : String → Option PeerId} {ttl : Nat} {peerId : String} {s t : Desk} {q : Request}

theorem apart_put {r : Nat} {reach : ReachabilityCache} (apart : s.Apart parsePeerId ttl peerId)
    (own : q.peerId = peerId → (parsePeerId peerId).isSome = true → ∀ k other, k ≠ r → s.requests k = some other →
      other.peerId = peerId → q.stage.launch.Apart ttl s.now other.stage.launch) :
    (s.put r q reach).Apart parsePeerId ttl peerId := by
  intro i k a b differ atI atK named same parses
  rcases mem_put atI with ⟨rfl, rfl⟩ | ⟨-, first⟩
  · rcases mem_put atK with ⟨rfl, -⟩ | ⟨other, second⟩
    · exact absurd rfl differ
    · exact own named parses k b other second same
  · rcases mem_put atK with ⟨rfl, rfl⟩ | ⟨-, second⟩
    · exact (own same parses i a differ first named).symm
    · exact apart i k a b differ first second named same parses

theorem Desk.Accounted.past (accounted : s.Accounted parsePeerId ttl) {inserted : Nat}
    (held : s.reach.Holds peerId inserted) : inserted ≤ s.now := by
  obtain ⟨reached, verdict, entry, after⟩ := held
  exact Nat.le_trans after (accounted.entries _ _ _ entry).1

theorem apart_of_miss {k : Nat} {other : Request} (accounted : s.Accounted parsePeerId ttl)
    (known : s.requests k = some other) (stale : s.reach.fresh ttl s.now other.peerId = none)
    (alone : ¬ other.stage.Outstanding ttl s.now) : Launch.pending.Apart ttl s.now other.stage.launch := by
  have sound := accounted.requests k other known
  cases stood : other.stage with
  | arrived => trivial
  | missed =>
    rw [stood] at alone
    exact absurd trivial alone
  | probing begun probe =>
    rw [stood] at alone
    exact Nat.le_of_not_lt alone
  | answered answer =>
    rw [stood] at sound
    cases answer with
    | cached verdict reached served => trivial
    | probed begun verdict inserted =>
      obtain ⟨⟨after, -⟩, held⟩ := sound
      have held := held begun verdict inserted rfl
      have old := stale_of_holds (accounted.past held) held stale
      exact Nat.le_trans (Nat.add_le_add_right after ttl) old

theorem deskStep_apart {e : DeskEvent} (accounted : s.Accounted parsePeerId ttl)
    (apart : s.Apart parsePeerId ttl peerId) (alone : MissesAlone parsePeerId ttl peerId s e)
    (stepped : deskStep parsePeerId ttl s e = some t) : t.Apart parsePeerId ttl peerId := by
  rcases deskStep_cases stepped with ⟨ticks, -, rfl⟩ | ⟨r, arrived, addrs, -, free, rfl⟩ |
    ⟨r, action, old, stage, reach, acts, found, acted, rfl⟩
  · intro r k a b differ first second named same parses
    exact (apart r k a b differ first second named same parses).later (Nat.le_add_right _ _)
  · exact apart_put apart fun _ _ _ _ _ _ _ => trivial
  · refine apart_put apart fun named parses k other differ known same => ?_
    have own := apart r k old other differ.symm found known named same parses
    cases acted_of_act acted with
    | hit => trivial
    | miss arrived stale =>
      have quiet := alone r old acts found named parses (named ▸ stale) k other differ known same
      exact apart_of_miss accounted known (same.trans named.symm ▸ stale) quiet
    | dialed missed =>
      rw [missed] at own
      change Launch.Apart ttl s.now (.begun s.now) other.stage.launch
      cases launch : other.stage.launch with
      | no => trivial
      | pending =>
        rw [launch] at own
        exact own.elim
      | begun t =>
        rw [launch] at own
        exact Or.inr own
    | probed probing =>
      rw [probing] at own
      exact own
    | inserted done =>
      rw [done] at own
      exact own

theorem dialedAt_eq_some {t : Nat} :
    q.dialedAt parsePeerId = some t ↔ q.stage.launch = .begun t ∧ (parsePeerId q.peerId).isSome = true := by
  unfold Request.dialedAt
  cases q.stage.launch with
  | no => simp
  | pending => simp
  | begun u => simp [and_comm]

theorem dialsBounded_of_apart (accounted : s.Accounted parsePeerId ttl) (apart : s.Apart parsePeerId ttl peerId) :
    DialsBounded parsePeerId ttl peerId s := by
  constructor
  · intro r k q other t u first second named same begins begins' before within
    obtain ⟨launched, parses⟩ := dialedAt_eq_some.mp begins
    obtain ⟨launched', -⟩ := dialedAt_eq_some.mp begins'
    by_contra differ
    have apart := apart r k q other (Ne.symm differ) first second named same (named ▸ parses)
    rw [launched, launched'] at apart
    change t + ttl ≤ u ∨ u + ttl ≤ t at apart
    omega
  · intro r q answer known named answered
    have sound := accounted.requests r q known
    rw [answered] at sound
    exact sound.1

/-! ### Whole runs -/

/-- How long a verdict is served for, the clock's ticks being of any length. -/
def cacheTtl (ticksPerSec : Nat) : Nat := cacheTtlSecs * ticksPerSec

theorem new_accounted (now : Nat) : (Desk.new now).Accounted parsePeerId ttl :=
  ⟨fun _ _ _ entry => (nomatch entry), fun _ _ known => (nomatch known)⟩

theorem run_accounted {now : Nat} {events : List DeskEvent}
    (ran : Systems.run (deskStep parsePeerId ttl) (Desk.new now) events = some s) : s.Accounted parsePeerId ttl :=
  run_invariant (fun _ _ _ accounted stepped => deskStep_accounted accounted stepped) ran (new_accounted now)

/-- Where every lookup of the peer that misses finds no other request for it outstanding, its dials are bounded. -/
theorem dials_bounded {ticksPerSec now : Nat} {events : List DeskEvent} {final : Desk}
    (ran : Systems.run (deskStep parsePeerId (cacheTtl ticksPerSec)) (Desk.new now) events = some final)
    (alone : Meets (deskStep parsePeerId (cacheTtl ticksPerSec)) (MissesAlone parsePeerId (cacheTtl ticksPerSec) peerId)
      (Desk.new now) events) :
    DialsBounded parsePeerId (cacheTtl ticksPerSec) peerId final := by
  have both : final.Accounted parsePeerId (cacheTtl ticksPerSec) ∧
      final.Apart parsePeerId (cacheTtl ticksPerSec) peerId := by
    refine run_invariant_meeting (I := fun s => s.Accounted parsePeerId (cacheTtl ticksPerSec) ∧
      s.Apart parsePeerId (cacheTtl ticksPerSec) peerId) ?_ ran alone ?_
    · rintro s e t ⟨accounted, apart⟩ alone stepped
      exact ⟨deskStep_accounted accounted stepped, deskStep_apart accounted apart alone stepped⟩
    · exact ⟨new_accounted now, fun _ _ _ _ _ known => nomatch known⟩
  exact dialsBounded_of_apart both.1 both.2

theorem dials_bounded_in_turn :
    let id := "12D3KooWEyoppNCUx8Yx66oV"
    let dial : List DeskEvent :=
      [.acts 0 .dials, .arrives 1 id [], .acts 0 (.probes (.attemptEnds (.reached id))), .acts 0 (.probes .hangsUp),
        .acts 0 .inserts, .passes 299]
    let before : List DeskEvent := .arrives 0 id [] :: .acts 0 .looksUp :: dial
    ∃ final, Systems.run (deskStep some (cacheTtl 1)) (Desk.new 0) (before ++ [.acts 1 .looksUp]) = some final ∧
      (final.requests 1).map (·.stage) = some (.answered (.cached { ok := true } 0 299)) ∧
      DialsBounded some (cacheTtl 1) id final := by
  intro id dial before
  have served : ((Systems.run (deskStep some (cacheTtl 1)) (Desk.new 0) (before ++ [.acts 1 .looksUp])).bind
      fun s => (s.requests 1).map (·.stage)) = some (.answered (.cached { ok := true } 0 299)) := by decide
  obtain ⟨final, ran, stage⟩ := Option.bind_eq_some_iff.mp served
  refine ⟨final, ran, stage, dials_bounded ran (meets_append.mpr ⟨⟨?_, fun s arrived => ⟨?_, fun t _ => ?_⟩⟩, ?_⟩)⟩
  · exact fun r q acts => nomatch acts
  · obtain rfl := Option.some.inj arrived
    rintro r q acts - - - - k other differ known
    cases acts
    exact absurd known (by simp [Desk.put, Desk.new, differ])
  · refine meets_of_all (fun e member s r q acts => ?_) t
    subst acts
    exact absurd member (by simp [dial])
  · intro m reached
    refine ⟨fun r q acts found _ _ stale => ?_, fun _ _ => trivial⟩
    have hit : ((Systems.run (deskStep some (cacheTtl 1)) (Desk.new 0) before).map
        fun s => (s.reach.fresh (cacheTtl 1) s.now id).isSome) = some true := by decide
    rw [reached, Option.map_some, stale] at hit
    cases hit

/-- The second request looks up while the first is dialing: the peer is dialed twice in one second. -/
theorem dialed_twice_at_once :
    let id := "12D3KooWEyoppNCUx8Yx66oV"
    let events : List DeskEvent :=
      [.arrives 0 id [], .acts 0 .looksUp, .acts 0 .dials, .passes 1, .arrives 1 id [], .acts 1 .looksUp,
        .acts 1 .dials]
    ∃ final, Systems.run (deskStep some (cacheTtl 1)) (Desk.new 0) events = some final ∧
      ¬ DialsBounded some (cacheTtl 1) id final := by
  intro id events
  refine ⟨_, rfl, fun bounded => ?_⟩
  exact absurd (bounded.one_dial 0 1 _ _ 0 1 rfl rfl rfl rfl rfl rfl (by decide) (by decide)) (by decide)

theorem not_bounded_of_dials {r k : Nat} {other : Request} {begun begun' : Nat} (differ : k ≠ r)
    (known : s.requests r = some q) (known' : s.requests k = some other) (named : q.peerId = peerId)
    (named' : other.peerId = peerId) (parses : (parsePeerId peerId).isSome = true)
    (dialed : q.stage.launch = .begun begun) (dialed' : other.stage.launch = .begun begun')
    (after : begun ≤ begun') (soon : begun' < begun + ttl) : ¬ DialsBounded parsePeerId ttl peerId s := by
  intro bounded
  have first := dialedAt_eq_some.mpr ⟨dialed, named.symm ▸ parses⟩
  have second := dialedAt_eq_some.mpr ⟨dialed', named'.symm ▸ parses⟩
  exact differ (bounded.one_dial r k q other begun begun' known known' named named' first second after soon)

theorem deskStep_miss {r : Nat} (known : s.requests r = some q) (stale : s.reach.fresh ttl s.now q.peerId = none)
    (stepped : deskStep parsePeerId ttl s (.acts r .looksUp) = some t) :
    t = s.put r { q with stage := .missed } s.reach := by
  rcases deskStep_cases stepped with ⟨_, acts, -⟩ | ⟨_, _, _, acts, -⟩ | ⟨_, _, _, _, _, acts, found, acted, rfl⟩
  · cases acts
  · cases acts
  · cases acts
    obtain rfl := Option.some.inj (known.symm.trans found)
    cases acted_of_act acted with
    | hit _ fresh => exact nomatch stale.symm.trans fresh
    | miss => rfl

/-- Anything else breaks the bound: once a lookup has missed beside an outstanding request, the two may dial. -/
theorem overlap_dials_twice {now : Nat} {before : List DeskEvent} {e : DeskEvent} (lives : 0 < ttl)
    (ran : Systems.run (deskStep parsePeerId ttl) (Desk.new now) before = some s)
    (stepped : deskStep parsePeerId ttl s e = some t) (overlaps : ¬ MissesAlone parsePeerId ttl peerId s e) :
    ∃ more final, Systems.run (deskStep parsePeerId ttl) t more = some final ∧
      ¬ DialsBounded parsePeerId ttl peerId final := by
  unfold MissesAlone at overlaps
  push Not at overlaps
  obtain ⟨r, q, rfl, found, named, parses, stale, k, other, differ, known, same, outstanding⟩ := overlaps
  obtain rfl := deskStep_miss found (named ▸ stale) stepped
  have atR : (s.put r { q with stage := .missed } s.reach).requests r = some { q with stage := .missed } := if_pos rfl
  have atK : (s.put r { q with stage := .missed } s.reach).requests k = some other := (if_neg differ).trans known
  cases stood : other.stage with
  | arrived =>
    rw [stood] at outstanding
    exact outstanding.elim
  | answered =>
    rw [stood] at outstanding
    exact outstanding.elim
  | probing begun probe =>
    rw [stood] at outstanding
    have sound := (run_accounted ran).requests k other known
    rw [stood] at sound
    have launched : other.stage.launch = .begun begun := congrArg Stage.launch stood
    refine ⟨[.acts r .dials], _, (run_cons _).mpr ⟨_, deskStep_dials atR rfl, rfl⟩, ?_⟩
    exact not_bounded_of_dials differ.symm ((if_neg differ).trans atK) (if_pos rfl) same named parses launched rfl
      sound.1 outstanding
  | missed =>
    -- the other request may dial first, at the same instant
    refine ⟨[.acts k .dials, .acts r .dials], _, (run_cons _).mpr ⟨_, deskStep_dials atK stood, (run_cons _).mpr
      ⟨_, deskStep_dials ((if_neg differ.symm).trans atR) rfl, rfl⟩⟩, ?_⟩
    exact not_bounded_of_dials differ (if_pos rfl) ((if_neg differ).trans (if_pos rfl)) named same parses rfl rfl
      (Nat.le_refl _) (Nat.lt_add_of_pos_right lives)

end

end KwaaiNetMap
