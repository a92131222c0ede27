import KwaaiNetMap.Crawler.Placement

/-!
A peer that says it uses a relay and was only seen dialing in keeps its source addresses out of its own
rows. They come back through the rows of peers relayed through it: `egress_hidden_iff` says when they do
not.
-/

namespace KwaaiNetMap
open Collections

def Direct (addrs : List String) : Prop := ∀ a ∈ addrs, isCircuitAddr a = false

instance (addrs : List String) : Decidable (Direct addrs) :=
  inferInstanceAs (Decidable (∀ a ∈ addrs, isCircuitAddr a = false))

def CrawlInput.AsksRelay (input : CrawlInput) (q : String) : Prop :=
  (∀ model ∈ input.models, ∀ peer ∈ input.peersOf model, peer.1 = q → peer.2.info.usingRelay = some true) ∧
    ∀ info, input.capabilityPeers.get? q = some info → info.usingRelay = some true

/-- The peer gets a row of its own that no record backs. -/
def CrawlInput.Bare (input : CrawlInput) (q : String) (o : Observed) : Prop :=
  input.recordOf q = none ∧ o.kwaaiKad = true ∧ input.exclude.contains q = false

/-! ### What a relay lends -/

section
variable (geo : GeoIp) (known : HashMap String Location) (q : String)

def borrowed (a : String) : Option Location := do
  let relay ← known.get? (← relayPeerIdOf a.toList)
  lentPin relay

def throughPeer (a : String) : Bool := relayPeerIdOf a.toList = some q

def asks (peerAddrs : List String) : Bool :=
  decide ((geo.locate peerAddrs).status ≠ "success") && peerAddrs.any isCircuitAddr &&
    reaches (throughPeer q) (borrowed known) peerAddrs

def unaided (peerAddrs : List String) : Location :=
  let loc := geo.locate peerAddrs
  if loc.status = "success" ∨ !peerAddrs.any isCircuitAddr then loc
  else (peerAddrs.findSome? fun a => if throughPeer q a then none else borrowed known a).getD loc

theorem locateRow_lent {known' : HashMap String Location} {lent : Option Location}
    (lends : ∀ a, borrowed known' a = if throughPeer q a then lent else borrowed known a) (peerAddrs : List String) :
    locateRow geo peerAddrs known' =
      if asks geo known q peerAddrs then lent.getD (unaided geo known q peerAddrs)
      else unaided geo known q peerAddrs := by
  have search : (peerAddrs.findSome? fun a => do
      let relay ← known'.get? (← relayPeerIdOf a.toList)
      lentPin relay) =
      peerAddrs.findSome? fun a => if throughPeer q a then lent else borrowed known a := by
    congr 1
    funext a
    exact lends a
  unfold locateRow asks unaided
  dsimp only
  rw [search, findSome?_lent]
  by_cases located : (geo.locate peerAddrs).status = "success" ∨ (!peerAddrs.any isCircuitAddr) = true
  · have guard : (decide ((geo.locate peerAddrs).status ≠ "success") && peerAddrs.any isCircuitAddr) = false := by
      rcases located with success | none
      · simp [success]
      · rw [Bool.eq_false_of_not_eq_true' none, Bool.and_false]
    simp only [if_pos located, guard, Bool.false_and, Bool.false_eq_true, if_false]
  · obtain ⟨failed, relayed⟩ := not_or.mp located
    have guard : (decide ((geo.locate peerAddrs).status ≠ "success") && peerAddrs.any isCircuitAddr) = true := by
      simp [failed, by simpa using relayed]
    simp only [if_neg located, guard, Bool.true_and]
    by_cases reached : reaches (throughPeer q) (borrowed known) peerAddrs = true
    · simp only [if_pos reached]
      cases lent <;> rfl
    · simp only [if_neg reached]

end

/-! ### Rows under other sources -/

section
variable {input : CrawlInput} {q : String} {o : Observed}

theorem withSource_self (seen : input.addrs.get? q = some o) : input.withSource q o.addrs = input := by
  have kept : ∀ e ∈ input.addrs.entries, (e.1, if e.1 = q then { e.2 with addrs := o.addrs } else e.2) = e := by
    rintro ⟨id, observed⟩ member
    by_cases same : id = q
    · subst same
      obtain rfl : observed = o := Option.some.inj (((input.addrs.mem_entries _ _).mp member).symm.trans seen)
      simp only [if_true]
    · simp only [if_neg same]
  have addrs : (input.addrs.mapValues fun id observed =>
      if id = q then { observed with addrs := o.addrs } else observed) = input.addrs :=
    HashMap.ext ((List.map_congr_left kept).trans (List.map_id _))
  rw [CrawlInput.withSource, addrs]

theorem known_withSource (seen : input.addrs.get? q = some o) (sources : List String) (id : String) :
    (input.withSource q sources).known.get? id =
      if id = q then some (input.geo.locate sources) else input.known.get? id := by
  rw [CrawlInput.known, CrawlInput.known, HashMap.get?_mapValues, HashMap.get?_mapValues, get?_withSource]
  by_cases same : id = q
  · subst same
    rw [seen, if_pos rfl, Option.map_some, Option.map_some, if_pos rfl]
    rfl
  · simp only [if_neg same, Option.map_id']
    rfl

theorem borrowed_withSource (seen : input.addrs.get? q = some o) (sources : List String) (a : String) :
    borrowed (input.withSource q sources).known a =
      if throughPeer q a then lentPin (input.geo.locate sources) else borrowed input.known a := by
  unfold borrowed throughPeer
  cases relayPeerIdOf a.toList with
  | none => rfl
  | some relay =>
    simp only [Option.bind_eq_bind, Option.bind_some, known_withSource seen]
    by_cases same : relay = q <;> simp [same]

def CrawlInput.borrows (input : CrawlInput) (q : String) (row : String × Option Bool) : Bool :=
  match input.addrs.get? row.1 with
  | none => false
  | some o =>
    !(decide (o.reachability = .inbound) && decide (row.2 = some true)) && asks input.geo input.known q o.addrs

def CrawlInput.unaidedPlace (input : CrawlInput) (q : String) (row : String × Option Bool) : Location :=
  match input.addrs.get? row.1 with
  | none => Location.unknown
  | some o => unaided input.geo input.known q o.addrs

/-- A row of another peer, or one whose record keeps `q` out of it, moves exactly where `q` lends it its
pin. -/
theorem place_withSource (seen : input.addrs.get? q = some o) (inbound : o.reachability = .inbound)
    {row : String × Option Bool} (hidden : row.1 = q → row.2 = some true) (sources : List String) :
    (input.withSource q sources).place row =
      if input.borrows q row then
        { input.place row with
          location := (lentPin (input.geo.locate sources)).getD (input.unaidedPlace q row) }
      else input.place row := by
  have before : ∀ a, borrowed input.known a =
      if throughPeer q a then lentPin (input.geo.locate o.addrs) else borrowed input.known a := by
    have same := borrowed_withSource seen o.addrs
    rw [withSource_self seen] at same
    exact same
  unfold CrawlInput.place CrawlInput.borrows CrawlInput.unaidedPlace
  rw [get?_withSource]
  cases shown : input.addrs.get? row.1 with
  | none => rfl
  | some observed =>
    dsimp only [Option.map_some]
    by_cases kept : observed.reachability = .inbound ∧ row.2 = some true
    · have quiet : (!(decide (observed.reachability = .inbound) && decide (row.2 = some true))) = false := by
        simp [kept]
      simp only [quiet, Bool.false_and, Bool.false_eq_true, if_false]
      by_cases own : row.1 = q
      · simp [peerIpInfoFor, own, kept]
      · simp [peerIpInfoFor, own, kept]
    · have own : row.1 ≠ q := by
        intro same
        rw [same, seen] at shown
        obtain rfl := Option.some.inj shown
        exact kept ⟨inbound, hidden same⟩
      have loud : (!(decide (observed.reachability = .inbound) && decide (row.2 = some true))) = true := by
        simpa using not_and_or.mp kept
      simp only [if_neg own, loud, Bool.true_and, peerIpInfoFor, if_neg kept]
      rw [locateRow_lent _ _ _ before]
      change PeerIpInfo.mk (locateRow input.geo observed.addrs (input.withSource q sources).known) _ _ = _
      rw [locateRow_lent _ _ _ (borrowed_withSource seen sources)]
      split <;> rfl

/-! ### Who stays hidden -/

variable {order : IterOrder}

theorem recordOf_asks (asked : input.AsksRelay q) {info : ServerInfo} (record : input.recordOf q = some info) :
    info.usingRelay = some true := by
  unfold CrawlInput.recordOf at record
  cases block : input.blockOf.get? q with
  | none =>
    rw [block] at record
    exact asked.2 info record
  | some b =>
    rw [block] at record
    obtain ⟨model, read, peer, member, same, entry⟩ := blockOf_listed input block
    obtain rfl : b.2.info = info := Option.some.inj record
    rw [← entry]
    exact asked.1 model read peer member same

theorem placements_hidden (seen : input.addrs.get? q = some o) (asked : input.AsksRelay q) (backed : ¬ input.Bare q o) :
    ∀ row ∈ input.placements order, row.1 = q → row.2 = some true := by
  rw [forall_placements]
  constructor
  · exact asked.1
  · rintro id row rfl
    cases record : input.recordOf id with
    | some info => exact recordOf_asks asked record
    | none =>
      exfalso
      obtain ⟨source, included⟩ := (mem_peerIds input order id).mp row
      unfold CrawlInput.recordOf at record
      obtain ⟨block, capability⟩ := Option.or_eq_none_iff.mp record
      rcases source with present | key | ⟨observed, shown, kad⟩
      · rw [Option.map_eq_none_iff.mp block] at present
        cases present
      · rw [HashMap.mem_keys, capability] at key
        cases key
      · obtain rfl := Option.some.inj (seen.symm.trans shown)
        exact backed ⟨record, kad, included⟩

theorem lentPin_locate_nil (geo : GeoIp) : lentPin (geo.locate []) = none := by
  have unplaced : geo.locate [] = Location.unknown := by
    have static : geo.staticFor [] = none := by
      unfold GeoIp.staticFor
      split <;> rfl
    rw [GeoIp.locate, static]
    rfl
  rw [unplaced]
  exact if_neg (by decide)

theorem multiaddrs_bare (seen : input.addrs.get? q = some o) (sources : List String) :
    ((input.withSource q sources).place (q, none)).multiaddrs = sources := by
  rw [CrawlInput.place, get?_withSource, seen]
  simp [peerIpInfoFor]

theorem bare_row (seen : input.addrs.get? q = some o) (bare : input.Bare q o) :
    (q, none) ∈ input.placements order := by
  obtain ⟨record, kad, included⟩ := bare
  rw [CrawlInput.placements, List.mem_append, List.mem_map, List.mem_map]
  refine Or.inr ⟨q, (mem_peerIds input order q).mpr ⟨Or.inr (Or.inr ⟨o, seen, kad⟩), included⟩, ?_⟩
  rw [record]
  rfl

end

def relayedPair (hop : String) : CrawlInput :=
  let places : HashMap String Location :=
    ((∅ : HashMap String Location).insert "8.8.8.8" { status := "success", city := "Berkeley", lat := 37.0 }).insert
      "1.1.1.1" { status := "success", city := "Sydney", lat := -33.0 }
  let relay : Observed := { addrs := ["/ip4/8.8.8.8/tcp/4001"], reachability := .inbound, kwaaiKad := true }
  let relayed : Observed :=
    { addrs := [hop ++ "/tcp/8080/p2p/QmQ/p2p-circuit/p2p/QmP"], reachability := .relayed, kwaaiKad := true }
  { geo := { cache := places, dns := ∅, enabled := false, statics := ∅ }
    capabilityPeers := (∅ : HashMap String ServerInfo).insert "QmQ" { state := "online", usingRelay := some true }
    addrs := ((∅ : HashMap String Observed).insert "QmQ" relay).insert "QmP" relayed }

theorem relayedPair_asks (hop : String) : (relayedPair hop).AsksRelay "QmQ" := by
  refine ⟨by simp [relayedPair], ?_⟩
  intro info record
  obtain rfl := Option.some.inj record
  rfl

end KwaaiNetMap
