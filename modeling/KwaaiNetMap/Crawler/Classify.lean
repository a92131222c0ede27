import KwaaiNetMap.Collections.Leading
import KwaaiNetMap.Crawler.Observed

/-!
Each connection of a peer gives a verdict by itself. `classify` keeps the most trusted of them with the
addresses of the connections that gave it (`classify_eq`), so it is a join: what is known of a peer does not
depend on how its connections are grouped or listed (`classification_joins`).
-/

namespace KwaaiNetMap
open Collections

/-! ### Trust -/

def Reachability.trust : Reachability → Nat
  | punched => 3
  | direct => 2
  | relayed => 1
  | inbound => 0

def Reachability.ofTrust : Nat → Reachability
  | 0 => inbound
  | 1 => relayed
  | 2 => direct
  | _ => punched

theorem Reachability.ofTrust_trust (r : Reachability) : ofTrust r.trust = r := by
  cases r <;> rfl

theorem Reachability.trust_inj {a b : Reachability} : a.trust = b.trust ↔ a = b :=
  ⟨fun same => by rw [← a.ofTrust_trust, same, b.ofTrust_trust], fun same => same ▸ rfl⟩

def Conn.verdict (c : Conn) : Reachability :=
  if c.dcutr then .punched
  else if c.isCircuit then .relayed
  else if c.outbound then .direct
  else .inbound

def Conn.trust (c : Conn) : Nat := c.verdict.trust

def Conn.shownAddr (peerId : String) (c : Conn) : String :=
  if c.verdict = .relayed then c.relayedAddr peerId else c.addr

theorem Conn.verdict_punched (c : Conn) : c.verdict = .punched ↔ c.dcutr = true := by
  unfold Conn.verdict
  cases c.dcutr <;> cases c.isCircuit <;> cases c.outbound <;> simp

theorem Conn.verdict_direct (c : Conn) :
    c.verdict = .direct ↔ c.dcutr = false ∧ c.outbound = true ∧ c.isCircuit = false := by
  unfold Conn.verdict
  cases c.dcutr <;> cases c.isCircuit <;> cases c.outbound <;> simp

theorem Conn.verdict_relayed (c : Conn) : c.verdict = .relayed ↔ c.dcutr = false ∧ c.isCircuit = true := by
  unfold Conn.verdict
  cases c.dcutr <;> cases c.isCircuit <;> cases c.outbound <;> simp

/-- A plain connection the peer dialed: no circuit, and no hole was punched. -/
def Conn.DialedIn (c : Conn) : Prop := c.dcutr = false ∧ c.isCircuit = false ∧ c.direction = .inbound

instance (c : Conn) : Decidable c.DialedIn := inferInstanceAs (Decidable (_ ∧ _))

theorem Conn.verdict_inbound (c : Conn) : c.verdict = .inbound ↔ c.DialedIn := by
  unfold Conn.verdict Conn.outbound Conn.DialedIn
  cases c.dcutr <;> cases c.isCircuit <;> cases c.direction <;> simp

/-! ### One peer -/

section
variable {conns : List Conn} {c : Conn}

theorem trust_eq_top (member : c ∈ conns) (above : ∀ d ∈ conns, d.verdict.trust ≤ c.verdict.trust) :
    top Conn.trust conns = c.verdict.trust := top_eq_of_mem member above

theorem top_punched (member : c ∈ conns) (dcutr : c.dcutr = true) : top Conn.trust conns = 3 := by
  have verdict := c.verdict_punched.mpr dcutr
  have attained := trust_eq_top member fun d _ => by rw [verdict]; cases d.verdict <;> decide
  rw [attained, verdict]
  rfl

theorem verdict_ne_punched (unpunched : ∀ c ∈ conns, c.dcutr = false) (member : c ∈ conns) : c.verdict ≠ .punched := by
  intro punched
  rw [c.verdict_punched, unpunched c member] at punched
  cases punched

theorem top_direct (unpunched : ∀ c ∈ conns, c.dcutr = false) (member : c ∈ conns)
    (dialed : (c.outbound && !c.isCircuit) = true) : top Conn.trust conns = 2 := by
  have verdict : c.verdict = .direct := c.verdict_direct.mpr ⟨unpunched c member, by simpa using dialed⟩
  have attained := trust_eq_top member fun d other => by
    rw [verdict]
    cases against : d.verdict with
    | punched => exact absurd against (verdict_ne_punched unpunched other)
    | direct | relayed | inbound => decide
  rw [attained, verdict]
  rfl

theorem top_relayed (unpunched : ∀ c ∈ conns, c.dcutr = false)
    (undialed : ∀ c ∈ conns, (c.outbound && !c.isCircuit) = false) (member : c ∈ conns)
    (circuit : c.isCircuit = true) : top Conn.trust conns = 1 := by
  have verdict : c.verdict = .relayed := c.verdict_relayed.mpr ⟨unpunched c member, circuit⟩
  have attained := trust_eq_top member fun d other => by
    rw [verdict]
    cases against : d.verdict with
    | punched => exact absurd against (verdict_ne_punched unpunched other)
    | direct =>
      obtain ⟨-, outbound, plain⟩ := d.verdict_direct.mp against
      have quiet := undialed d other
      rw [outbound, plain] at quiet
      cases quiet
    | relayed | inbound => decide
  rw [attained, verdict]
  rfl

theorem verdict_of_bare (unpunched : ∀ c ∈ conns, c.dcutr = false)
    (undialed : ∀ c ∈ conns, (c.outbound && !c.isCircuit) = false) (unrelayed : ∀ c ∈ conns, c.isCircuit = false)
    (member : c ∈ conns) : c.verdict = .inbound := by
  have bare := undialed c member
  rw [unrelayed c member] at bare
  refine c.verdict_inbound.mpr ⟨unpunched c member, unrelayed c member, ?_⟩
  cases direction : c.direction with
  | inbound => rfl
  | outbound => simp [Conn.outbound, direction] at bare

theorem top_bare (quiet : ∀ c ∈ conns, c.verdict = .inbound) : top Conn.trust conns = 0 :=
  Nat.le_zero.mp (top_le fun c member => by rw [Conn.trust, quiet c member]; exact le_rfl)

theorem shown_of_top {v : Reachability} {p : Conn → Bool} {addr : Conn → String} {peerId : String}
    (attained : top Conn.trust conns = v.trust) (given : ∀ c ∈ conns, p c = true ↔ c.verdict = v)
    (shown : ∀ c, c.verdict = v → c.shownAddr peerId = addr c) :
    (leading Conn.trust conns).map (·.shownAddr peerId) = (conns.filter p).map addr := by
  have same : ∀ c ∈ conns, p c = true ↔ c.trust = top Conn.trust conns := fun c member => by
    rw [attained, given c member, ← Reachability.trust_inj]
    rfl
  rw [leading_eq_filter same]
  refine List.map_congr_left fun c kept => shown c ?_
  obtain ⟨member, holds⟩ := List.mem_filter.mp kept
  exact (given c member).mp holds

theorem shownAddr_plain {peerId : String} {v : Reachability} (other : v ≠ .relayed) (c : Conn) (same : c.verdict = v) :
    c.shownAddr peerId = c.addr :=
  if_neg (same ▸ other)

theorem isEmpty_map_filter (conns : List Conn) (p : Conn → Bool) (addr : Conn → String) :
    ((conns.filter p).map addr).isEmpty = true ↔ ∀ c ∈ conns, p c = false := by
  simp [List.isEmpty_iff, List.filter_eq_nil_iff]

theorem isEmpty_map_filter_of_mem {p : Conn → Bool} (member : c ∈ conns) (holds : p c = true) (addr : Conn → String) :
    ((conns.filter p).map addr).isEmpty = false := by
  rw [← Bool.not_eq_true, isEmpty_map_filter]
  exact fun none => by rw [none c member] at holds; cases holds

theorem classify_eq (peerId : String) (conns : List Conn) :
    classify peerId conns =
      { addrs := (leading Conn.trust conns).map (·.shownAddr peerId)
        reachability := .ofTrust (top Conn.trust conns) } := by
  unfold classify
  by_cases punched : ∃ c ∈ conns, c.dcutr = true
  · obtain ⟨c, member, dcutr⟩ := punched
    have attained := top_punched member dcutr
    rw [if_pos (List.any_eq_true.mpr ⟨c, member, dcutr⟩), attained,
      shown_of_top (v := .punched) attained (fun d _ => d.verdict_punched.symm) (shownAddr_plain (by decide))]
    rfl
  · have unpunched : ∀ c ∈ conns, c.dcutr = false := by simpa using punched
    rw [if_neg (by simpa using punched)]
    dsimp only
    by_cases direct : ∃ c ∈ conns, (c.outbound && !c.isCircuit) = true
    · obtain ⟨c, member, dialed⟩ := direct
      have attained := top_direct unpunched member dialed
      rw [isEmpty_map_filter_of_mem member dialed, Bool.not_false, if_pos rfl, attained,
        shown_of_top (v := .direct) (p := fun c => c.outbound && !c.isCircuit) attained
          (fun d other => by simp [d.verdict_direct, unpunched d other]) (shownAddr_plain (by decide))]
      rfl
    · have undialed : ∀ c ∈ conns, (c.outbound && !c.isCircuit) = false := fun c member => by
        rw [← Bool.not_eq_true]
        exact fun dialed => direct ⟨c, member, dialed⟩
      rw [(isEmpty_map_filter conns _ _).mpr undialed, Bool.not_true, if_neg Bool.false_ne_true]
      by_cases relayed : ∃ c ∈ conns, c.isCircuit = true
      · obtain ⟨c, member, circuit⟩ := relayed
        have attained := top_relayed unpunched undialed member circuit
        rw [isEmpty_map_filter_of_mem member circuit, Bool.not_false, if_pos rfl, attained,
          shown_of_top (v := .relayed) (p := (·.isCircuit)) attained
            (fun d other => by simp [d.verdict_relayed, unpunched d other]) fun d same => if_pos same]
        rfl
      · have unrelayed : ∀ c ∈ conns, c.isCircuit = false := by simpa using relayed
        have quiet := fun c (member : c ∈ conns) => verdict_of_bare unpunched undialed unrelayed member
        have attained := top_bare quiet
        rw [(isEmpty_map_filter conns _ _).mpr unrelayed, Bool.not_true, if_neg Bool.false_ne_true, attained,
          shown_of_top (v := .inbound) (p := fun _ => true) attained (fun c member => by simp [quiet c member])
            (shownAddr_plain (by decide)), List.filter_true]
        rfl

end

theorem trust_classify (peerId : String) (conns : List Conn) :
    (classify peerId conns).reachability.trust = top Conn.trust conns := by
  rw [classify_eq]
  have most : top Conn.trust conns ≤ 3 := top_le fun c _ => by
    unfold Conn.trust
    cases c.verdict <;> decide
  generalize top Conn.trust conns = t at most
  obtain rfl | rfl | rfl | rfl : t = 0 ∨ t = 1 ∨ t = 2 ∨ t = 3 := by omega
  all_goals rfl

theorem classify_append (peerId : String) (xs ys : List Conn) :
    (classify peerId (xs ++ ys)).reachability.trust =
        max (classify peerId xs).reachability.trust (classify peerId ys).reachability.trust ∧
      (classify peerId (xs ++ ys)).addrs =
        (if (classify peerId xs).reachability = (classify peerId (xs ++ ys)).reachability then
          (classify peerId xs).addrs else []) ++
        if (classify peerId ys).reachability = (classify peerId (xs ++ ys)).reachability then
          (classify peerId ys).addrs else [] := by
  simp only [← Reachability.trust_inj, trust_classify]
  refine ⟨top_append xs ys, ?_⟩
  rw [classify_eq, classify_eq, classify_eq, leading_append, List.map_append, apply_ite (List.map _),
    apply_ite (List.map _), List.map_nil]

theorem classify_without_dialedIn (peerId : String) {conns : List Conn} (spoken : ∃ c ∈ conns, ¬ c.DialedIn) :
    classify peerId conns = classify peerId (conns.filter fun c => decide (¬ c.DialedIn)) := by
  obtain ⟨c, member, loud⟩ := spoken
  have silent : ∀ d : Conn, d.trust = 0 ↔ d.DialedIn := fun d => by
    rw [← d.verdict_inbound, ← Reachability.trust_inj]
    rfl
  have above : 0 < top Conn.trust conns :=
    Nat.lt_of_lt_of_le (Nat.pos_of_ne_zero fun zero => loud ((silent c).mp zero)) (le_top member)
  have kept : ∀ d ∈ conns, d.trust = top Conn.trust conns → decide (¬ d.DialedIn) = true := by
    intro d _ same
    refine decide_eq_true fun quiet => ?_
    rw [← same, (silent d).mpr quiet] at above
    exact Nat.lt_irrefl 0 above
  have same : top Conn.trust (conns.filter fun c => decide (¬ c.DialedIn)) = top Conn.trust conns := by
    refine le_antisymm (top_le fun d shown => le_top (List.mem_filter.mp shown).1) (top_le fun d shown => ?_)
    by_cases quiet : d.DialedIn
    · rw [(silent d).mpr quiet]
      exact Nat.zero_le _
    · exact le_top (List.mem_filter.mpr ⟨shown, decide_eq_true quiet⟩)
  rw [classify_eq, classify_eq, same, leading_filter _ kept same]

theorem classify_perm (peerId : String) {conns shuffled : List Conn} (perm : shuffled.Perm conns) :
    (classify peerId shuffled).reachability = (classify peerId conns).reachability ∧
      (classify peerId shuffled).addrs.Perm (classify peerId conns).addrs := by
  rw [classify_eq, classify_eq, top_perm perm]
  exact ⟨rfl, (leading_perm perm).map _⟩

/-! ### Every peer -/

def connsOf (peers : List PeerEntry) (id : String) : List Conn :=
  (peers.filter fun peer => decide (peer.peerId = id)).map (·.conn)

def seenAs (peers : List PeerEntry) (id : String) : Option Seen :=
  (peers.filter fun peer => decide (peer.peerId = id)).foldl (fun held peer => some (seenAgain peer held)) none

theorem get?_observedAddrs (peers : List PeerEntry) (id : String) :
    (observedAddrs (some peers)).get? id = (seenAs peers id).map fun s => s.observed id := by
  have fold := get?_foldl_upsert (μ := HashMap String Seen) (fun peer : PeerEntry => peer.peerId)
    seenAgain peers ∅ id
  change (peers.foldl seePeer ∅).get? id = _ at fold
  have observed : (observedAddrs (some peers)).get? id =
      ((peers.foldl seePeer ∅).get? id).map fun s => s.observed id := HashMap.get?_mapValues _ _ id
  rw [observed, fold]
  rfl

theorem seenAs_isSome (peers : List PeerEntry) (id : String) :
    (seenAs peers id).isSome = true ↔ ∃ peer ∈ peers, peer.peerId = id := by
  rw [seenAs, foldl_some_isSome seenAgain]
  simp [List.filter_eq_nil_iff]

theorem seen_conns (peers : List PeerEntry) (held : Option Seen) (s : Seen)
    (seen : peers.foldl (fun held peer => some (seenAgain peer held)) held = some s) :
    s.conns = (held.getD {}).conns ++ peers.map (·.conn) := by
  induction peers generalizing held with
  | nil =>
    obtain rfl : held = some s := seen
    simp
  | cons peer rest ih =>
    rw [ih _ seen]
    simp [seenAgain]

theorem seen_speaks (peers : List PeerEntry) (held : Option Seen) (s : Seen)
    (seen : peers.foldl (fun held peer => some (seenAgain peer held)) held = some s) :
    s.kwaaiKad = true ↔
      (held.getD {}).kwaaiKad = true ∨ ∃ peer ∈ peers, speaksKwaaiKad peer.protocols = true := by
  induction peers generalizing held with
  | nil =>
    obtain rfl : held = some s := seen
    simp
  | cons peer rest ih =>
    rw [ih _ seen]
    simp [seenAgain, or_assoc]

theorem observed_own {peers : List PeerEntry} {id : String} {o : Observed}
    (observed : (observedAddrs (some peers)).get? id = some o) :
    o.reachability = (classify id (connsOf peers id)).reachability ∧
      o.addrs = (classify id (connsOf peers id)).addrs ∧
      (o.kwaaiKad = true ↔ ∃ peer ∈ peers, peer.peerId = id ∧ speaksKwaaiKad peer.protocols = true) := by
  rw [get?_observedAddrs] at observed
  obtain ⟨s, seen, rfl⟩ := Option.map_eq_some_iff.mp observed
  have conns : s.conns = connsOf peers id := by simpa [connsOf] using seen_conns _ none s seen
  have kad := seen_speaks _ none s seen
  refine ⟨by rw [← conns]; rfl, by rw [← conns]; rfl, ?_⟩
  change s.kwaaiKad = true ↔ _
  rw [kad]
  simp [and_assoc]

theorem observedAddrs_speaks (listPeers : Option (List PeerEntry)) (id : String) :
    (∃ o, (observedAddrs listPeers).get? id = some o ∧ o.kwaaiKad = true) ↔
      ∃ peers, listPeers = some peers ∧
        ∃ peer ∈ peers, peer.peerId = id ∧ speaksKwaaiKad peer.protocols = true := by
  cases listPeers with
  | none => simp [observedAddrs]
  | some peers =>
    constructor
    · rintro ⟨o, found, kad⟩
      exact ⟨peers, rfl, (observed_own found).2.2.mp kad⟩
    · rintro ⟨_, listed, peer, member, same, speaks⟩
      obtain rfl := Option.some.inj listed
      obtain ⟨s, seen⟩ := Option.isSome_iff_exists.mp ((seenAs_isSome peers id).mpr ⟨peer, member, same⟩)
      have found : (observedAddrs (some peers)).get? id = some (s.observed id) := by
        rw [get?_observedAddrs, seen]
        rfl
      exact ⟨_, found, (observed_own found).2.2.mpr ⟨peer, member, same, speaks⟩⟩

structure Observed.Alike (o o' : Observed) : Prop where
  reachability : o'.reachability = o.reachability
  kwaaiKad : o'.kwaaiKad = o.kwaaiKad
  addrs : o'.addrs.Perm o.addrs

theorem observed_isSome (peers : List PeerEntry) (id : String) :
    ((observedAddrs (some peers)).get? id).isSome = true ↔ ∃ peer ∈ peers, peer.peerId = id := by
  rw [get?_observedAddrs, Option.isSome_map, seenAs_isSome]

theorem observed_perm {peers shuffled : List PeerEntry} (perm : shuffled.Perm peers) (id : String) :
    Option.Rel Observed.Alike ((observedAddrs (some peers)).get? id) ((observedAddrs (some shuffled)).get? id) := by
  have listed : ((observedAddrs (some peers)).get? id).isSome = ((observedAddrs (some shuffled)).get? id).isSome := by
    rw [Bool.eq_iff_iff, observed_isSome, observed_isSome]
    exact exists_congr fun peer => and_congr_left fun _ => perm.mem_iff.symm
  cases here : (observedAddrs (some peers)).get? id with
  | none =>
    cases there : (observedAddrs (some shuffled)).get? id with
    | none => exact .none
    | some o => rw [here, there] at listed; cases listed
  | some o =>
    cases there : (observedAddrs (some shuffled)).get? id with
    | none => rw [here, there] at listed; cases listed
    | some o' =>
      obtain ⟨verdict, addrs, kad⟩ := observed_own here
      obtain ⟨verdict', addrs', kad'⟩ := observed_own there
      obtain ⟨same, moved⟩ := classify_perm id ((perm.filter fun peer => decide (peer.peerId = id)).map (·.conn))
      refine .some ⟨verdict'.trans (same.trans verdict.symm), ?_, addrs ▸ addrs' ▸ moved⟩
      rw [Bool.eq_iff_iff, kad, kad']
      exact exists_congr fun peer => and_congr_left fun _ => perm.mem_iff

/-- Classification is a join over connections: the top verdict, with the addresses of the connections that give it.
Per peer it is of exactly the connections listed for it, in whatever order they are listed, and a plain connection
that dialed in shows only where no other is held. -/
theorem classification_joins :
    (∀ peerId conns,
      classify peerId conns =
        { addrs := (leading Conn.trust conns).map (·.shownAddr peerId)
          reachability := .ofTrust (top Conn.trust conns) }) ∧
      (∀ peerId xs ys,
        (classify peerId (xs ++ ys)).reachability.trust =
            max (classify peerId xs).reachability.trust (classify peerId ys).reachability.trust ∧
          (classify peerId (xs ++ ys)).addrs =
            (if (classify peerId xs).reachability = (classify peerId (xs ++ ys)).reachability then
              (classify peerId xs).addrs else []) ++
            if (classify peerId ys).reachability = (classify peerId (xs ++ ys)).reachability then
              (classify peerId ys).addrs else []) ∧
      (∀ peers shuffled : List PeerEntry, shuffled.Perm peers → ∀ id,
        Option.Rel Observed.Alike ((observedAddrs (some peers)).get? id) ((observedAddrs (some shuffled)).get? id)) ∧
      (∀ peers id, ((observedAddrs (some peers)).get? id).isSome = true ↔ ∃ peer ∈ peers, peer.peerId = id) ∧
      (∀ peers id o, (observedAddrs (some peers)).get? id = some o →
        o.reachability = (classify id (connsOf peers id)).reachability ∧
          o.addrs = (classify id (connsOf peers id)).addrs) ∧
      ∀ peerId conns, (∃ c ∈ conns, ¬ c.DialedIn) →
        classify peerId conns = classify peerId (conns.filter fun c => decide (¬ c.DialedIn)) := by
  refine ⟨classify_eq, classify_append, fun _ _ perm id => observed_perm perm id, observed_isSome, ?_, ?_⟩
  · intro peers id o observed
    obtain ⟨verdict, addrs, -⟩ := observed_own observed
    exact ⟨verdict, addrs⟩
  · exact fun peerId conns spoken => classify_without_dialedIn peerId spoken

end KwaaiNetMap
