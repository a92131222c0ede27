import KwaaiNetMap.Crawler.Assemble
import KwaaiNetMap.Crawler.Classify
import KwaaiNetMap.Crawler.PeerIds

/-!
Every address of a peer reached only through relays is a circuit address, and no circuit address places its
peer: whatever pin is found is its relay's and says so (`relayed_pin_lent`).
-/

namespace KwaaiNetMap
open Collections

/-! ### Pins -/

/-- The pin is nobody's place, or is labelled as the place of a relay. -/
def Location.Lent (loc : Location) : Prop := loc.status ≠ "success" ∨ loc.city = "Via relay"

instance (loc : Location) : Decidable loc.Lent := inferInstanceAs (Decidable (_ ∨ _))

theorem viaRelay_lent : Location.viaRelay.Lent := by decide

theorem viaRelayAt_lent (relay : Location) : (viaRelayAt relay).Lent := by
  unfold viaRelayAt
  split
  · exact viaRelay_lent
  · exact Or.inr rfl

theorem publicIpOf_circuit {addr : String} (circuit : isCircuitAddr addr = true) : publicIpOf addr.toList = none :=
  if_pos circuit

section
variable {addrs : List String} (circuits : ∀ a ∈ addrs, isCircuitAddr a = true)
include circuits

theorem staticFor_lent {geo : GeoIp} {pin : Location} (found : geo.staticFor addrs = some pin) : pin.Lent := by
  have own : addrs.filter (fun a => !isCircuitAddr a) = [] :=
    List.filter_eq_nil_iff.mpr fun a member => by simp [circuits a member]
  unfold GeoIp.staticFor at found
  split at found
  · cases found
  · simp only [own, List.findSome?_nil, Option.none_or, Option.map_eq_some_iff] at found
    obtain ⟨relay, -, rfl⟩ := found
    exact viaRelayAt_lent relay

theorem locate_lent (geo : GeoIp) : (geo.locate addrs).Lent := by
  have own : firstPublicIp addrs = none :=
    List.findSome?_eq_none_iff.mpr fun a member => publicIpOf_circuit (circuits a member)
  unfold GeoIp.locate
  cases found : geo.staticFor addrs with
  | some pin => exact staticFor_lent circuits found
  | none =>
    rw [own]
    dsimp only
    split
    · exact viaRelayAt_lent _
    · split
      · exact viaRelay_lent
      · exact Or.inl (by decide)

theorem locateRow_lent_of_circuits (geo : GeoIp) (known : HashMap String Location) :
    (locateRow geo addrs known).Lent := by
  have located := locate_lent circuits geo
  unfold locateRow
  dsimp only
  split
  · exact located
  · cases lent : addrs.findSome? fun a => do
      let relay ← known.get? (← relayPeerIdOf a.toList)
      lentPin relay with
    | none => exact located
    | some pin =>
      obtain ⟨a, -, borrowed⟩ := List.exists_of_findSome?_eq_some lent
      obtain ⟨id, -, borrowed⟩ := Option.bind_eq_some_iff.mp borrowed
      obtain ⟨relay, -, borrowed⟩ := Option.bind_eq_some_iff.mp borrowed
      unfold lentPin at borrowed
      split at borrowed
      · exact Option.some.inj borrowed ▸ viaRelayAt_lent relay
      · cases borrowed

end

def ViaListeners (conns : List Conn) : Prop :=
  ∀ c ∈ conns, ∀ via, c.via = some via → circuitMark <:+ via.toList

theorem relayedAddr_circuit {c : Conn} (circuit : c.isCircuit = true)
    (listener : ∀ via, c.via = some via → circuitMark <:+ via.toList) (peerId : String) :
    isCircuitAddr (c.relayedAddr peerId) = true := by
  unfold Conn.relayedAddr
  cases named : c.via with
  | none => simpa [Conn.isCircuit, named] using circuit
  | some via =>
    rw [isCircuitAddr, Text.contains_iff, String.toList_append, String.toList_append]
    exact (listener via named).isInfix.trans ⟨[], "/p2p/".toList ++ peerId.toList, by simp⟩

theorem classify_relayed_circuits {peerId : String} {conns : List Conn}
    (relayed : (classify peerId conns).reachability = .relayed) (listeners : ViaListeners conns) :
    ∀ a ∈ (classify peerId conns).addrs, isCircuitAddr a = true := by
  have attained : top Conn.trust conns = Reachability.relayed.trust := by rw [← trust_classify peerId, relayed]
  rw [classify_eq]
  intro a shown
  obtain ⟨c, leads, rfl⟩ := List.mem_map.mp shown
  obtain ⟨member, same⟩ := mem_leading.mp leads
  have verdict : c.verdict = .relayed := Reachability.trust_inj.mp (same.trans attained)
  rw [Conn.shownAddr, if_pos verdict]
  exact relayedAddr_circuit (c.verdict_relayed.mp verdict).2 (listeners c member) peerId

theorem circuitMark_not_before {transport relay : List Char} (free : ¬ circuitMark <:+: transport)
    (slash : '/' ∉ relay) (named : ¬ "p2p-circuit".toList <+: relay) :
    ¬ circuitMark <:+: transport ++ p2pMark ++ relay ++ circuitMark.dropLast := by
  have word : circuitMark = '/' :: "p2p-circuit".toList := rfl
  have single : '/' ∉ "p2p-circuit".toList := by decide
  have split : transport ++ p2pMark ++ relay ++ circuitMark.dropLast =
      transport ++ '/' :: ("p2p".toList ++ '/' :: (relay ++ '/' :: "p2p-circui".toList)) := by
    rw [show p2pMark = '/' :: ("p2p".toList ++ ['/']) from rfl,
      show circuitMark.dropLast = '/' :: "p2p-circui".toList from rfl]
    simp
  rw [word] at free
  rw [split, word, Text.infix_append single, Text.infix_append single, Text.infix_append single]
  rintro (inTransport | atName | inName | atRelay | inRelay | atEnd | inEnd)
  · exact free inTransport
  · exact absurd (Text.prefix_of_prefix_append single atName) (by decide)
  · exact absurd inName (Text.not_infix_of_fresh (by decide) _)
  · exact named (Text.prefix_of_prefix_append single atRelay)
  · exact absurd inRelay (Text.not_infix_of_fresh slash _)
  · exact absurd atEnd (by decide)
  · exact absurd inEnd (Text.not_infix_of_fresh (by decide) _)

theorem IsBase58.not_circuit {id : List Char} (digits : IsBase58 id) : ¬ "p2p-circuit".toList <+: id := fun front =>
  digits.dash (front.subset (by decide))

theorem rebuilt_names_relay {c : Conn} {via : String} {transport relay : List Char} (arrived : c.via = some via)
    (listener : via.toList = transport ++ p2pMark ++ relay ++ circuitMark) (free : ¬ circuitMark <:+: transport)
    (slash : '/' ∉ relay) (named : ¬ "p2p-circuit".toList <+: relay) (peerId : String) :
    relayPeerIdOf (c.relayedAddr peerId).toList = some (String.ofList relay) ∧
      publicIpOf (c.relayedAddr peerId).toList = none := by
  have rebuilt : (c.relayedAddr peerId).toList =
      (transport ++ p2pMark ++ relay) ++ circuitMark ++ (p2pMark ++ peerId.toList) := by
    rw [Conn.relayedAddr, arrived, String.toList_append, String.toList_append, listener]
    simp [p2pMark]
  have filled : circuitMark ≠ [] := by decide
  have part : relayPart (c.relayedAddr peerId).toList = some (transport ++ p2pMark ++ relay) := by
    rw [relayPart, rebuilt, (Text.splitOnce_append filled _ _).mpr (circuitMark_not_before free slash named)]
    rfl
  have hop : Text.rsplitOnce p2pMark (transport ++ p2pMark ++ relay) = some (transport, relay) :=
    Text.rsplitOnce_of_fresh slash transport "/p2p".toList
  have read : relayPeerIdOf (c.relayedAddr peerId).toList = some (String.ofList relay) := by
    rw [relayPeerIdOf, part]
    change (Text.rsplitOnce p2pMark (transport ++ p2pMark ++ relay)).bind _ = _
    rw [hop]
    rfl
  have circuit : isCircuitAddr (c.relayedAddr peerId) = true := by
    rw [isCircuitAddr, Text.contains_iff, rebuilt]
    exact List.infix_append _ _ _
  exact ⟨read, publicIpOf_circuit circuit⟩

/-! ### A relayed peer's row -/

theorem relayed_row_lent {peerId : String} {s : Seen} (relayed : (s.observed peerId).reachability = .relayed)
    (listeners : ViaListeners s.conns) (usingRelay : Option Bool) (geo : GeoIp) (known : HashMap String Location) :
    (peerIpInfoFor (some (s.observed peerId)) usingRelay geo known).location.Lent := by
  have circuits : ∀ a ∈ (s.observed peerId).addrs, isCircuitAddr a = true :=
    classify_relayed_circuits relayed listeners
  have dialed : ¬ ((s.observed peerId).reachability = .inbound ∧ usingRelay = some true) := by
    rw [relayed]
    simp
  simp only [peerIpInfoFor, if_neg dialed]
  exact locateRow_lent_of_circuits circuits geo known

/-- A relayed peer is nowhere, or at a pin that says it is its relay's; and an inbound circuit, its address
rebuilt, reads back as its relay and as no place of the peer's own. -/
theorem relayed_pin_lent (peerId : String) :
    (∀ (s : Seen) (usingRelay : Option Bool) (geo : GeoIp) (known : HashMap String Location),
      (s.observed peerId).reachability = .relayed → ViaListeners s.conns →
        (peerIpInfoFor (some (s.observed peerId)) usingRelay geo known).location.Lent) ∧
    ∀ (c : Conn) (via : String) (transport relay : List Char), c.via = some via →
      via.toList = transport ++ p2pMark ++ relay ++ circuitMark → ¬ circuitMark <:+: transport →
      '/' ∉ relay → ¬ "p2p-circuit".toList <+: relay →
        relayPeerIdOf (c.relayedAddr peerId).toList = some (String.ofList relay) ∧
          publicIpOf (c.relayedAddr peerId).toList = none := by
  constructor
  · intro s usingRelay geo known relayed listeners
    exact relayed_row_lent relayed listeners usingRelay geo known
  · intro c via transport relay arrived listener free slash named
    exact rebuilt_names_relay arrived listener free slash named peerId

def relayedIn : Conn :=
  { addr := "/p2p/QmNnooDu7bfjPFoTZYxMNLWUQJyrVwtbZg5gBMjTezGAJN", direction := .inbound,
    via := some "/ip4/1.2.3.4/p2p/QmaCpDMGvV2BGHeYERUEnRQAwe3N8SzbUtfsmvsqQLuvuJ/p2p-circuit", dcutr := false }

theorem relayedIn_pin_lent :
    let seen : Seen := { conns := [relayedIn] }
    let id := "QmNnooDu7bfjPFoTZYxMNLWUQJyrVwtbZg5gBMjTezGAJN"
    let relay : Location :=
      { status := "success", country := "Germany", city := "Berlin", lat := 52.5, lon := 13.4, isp := "Hosting" }
    let cache := (∅ : HashMap String Location).insert "1.2.3.4" relay
    let geo : GeoIp := { cache, dns := ∅, enabled := true, statics := ∅ }
    let pin := (peerIpInfoFor (some (seen.observed id)) none geo ∅).location
    (seen.observed id).reachability = .relayed ∧ pin.Lent ∧
      pin = { relay with city := "Via relay", isp := "Relay: Hosting" } ∧
      relayPeerIdOf (relayedIn.relayedAddr id).toList = some "QmaCpDMGvV2BGHeYERUEnRQAwe3N8SzbUtfsmvsqQLuvuJ" := by
  intro seen id relay cache geo pin
  have relayed : (seen.observed id).reachability = .relayed := by decide +kernel
  have listeners : ViaListeners seen.conns := by
    intro c member via named
    obtain rfl := List.mem_singleton.mp member
    obtain rfl := Option.some.inj named
    exact ⟨"/ip4/1.2.3.4/p2p/QmaCpDMGvV2BGHeYERUEnRQAwe3N8SzbUtfsmvsqQLuvuJ".toList, by decide +kernel⟩
  have digits : IsBase58 "QmaCpDMGvV2BGHeYERUEnRQAwe3N8SzbUtfsmvsqQLuvuJ".toList := by decide +kernel
  have free : ¬ circuitMark <:+: "/ip4/1.2.3.4".toList := (Text.splitOnce_eq_none _ _).mp (by decide +kernel)
  have rebuilt := (relayed_pin_lent id).2 relayedIn _ "/ip4/1.2.3.4".toList
    "QmaCpDMGvV2BGHeYERUEnRQAwe3N8SzbUtfsmvsqQLuvuJ".toList rfl (by decide +kernel) free digits.slash digits.not_circuit
  have lent : pin.Lent := (relayed_pin_lent id).1 seen none geo ∅ relayed listeners
  exact ⟨relayed, lent, by decide +kernel, rebuilt.1⟩

end KwaaiNetMap
