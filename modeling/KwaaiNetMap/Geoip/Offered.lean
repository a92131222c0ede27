import KwaaiNetMap.Crawler.Scripted
import KwaaiNetMap.Geoip.Provider

/-!
A peer is placed by one cache entry at most. `consulted_offered`: in every pass the IP that entry is under is
among those the pass hands to `warm`, so the pins of the peers it saw depend on no other entry.
-/

namespace KwaaiNetMap
open Collections

namespace GeoIp

/-- The IP whose cache entry places a peer: its own first, else its relay's first, else what a relay name of
its addresses is known to resolve to. -/
def consulted (geo : GeoIp) (addrs : List String) : Option String :=
  (firstPublicIp addrs).or
    ((firstRelayIp addrs).or (addrs.findSome? fun a => (relayDnsOf a.toList).bind geo.dns.get?))

def withCache (geo : GeoIp) (cache : HashMap String Location) : GeoIp := { geo with cache }

/-- Whatever else `locate` weighs, of the cache it reads the consulted entry only. -/
theorem locate_withCache {geo : GeoIp} {cache : HashMap String Location} {addrs : List String}
    (agree : ∀ ip, geo.consulted addrs = some ip → cache.get? ip = geo.cache.get? ip) :
    (geo.withCache cache).locate addrs = geo.locate addrs := by
  have static : (geo.withCache cache).staticFor addrs = geo.staticFor addrs := rfl
  have cached : ∀ ip, geo.consulted addrs = some ip → (geo.withCache cache).cached ip = geo.cached ip := by
    intro ip read
    exact congrArg (fun found => found.getD Location.unknown) (agree ip read)
  unfold consulted at cached
  unfold locate
  rw [static]
  cases geo.staticFor addrs with
  | some loc => rfl
  | none =>
    cases own : firstPublicIp addrs with
    | some ip => exact cached ip (by rw [own]; rfl)
    | none =>
      rw [own, Option.none_or] at cached
      dsimp only [withCache]
      cases relay : (firstRelayIp addrs).or (addrs.findSome? fun a => (relayDnsOf a.toList).bind geo.dns.get?) with
      | some ip => exact congrArg viaRelayAt (cached ip relay)
      | none => rfl

/-! ### Whose addresses are gathered -/

theorem firstPublicIp_gathered {addrs flat : List String} (within : addrs ⊆ flat) {ip : String}
    (own : firstPublicIp addrs = some ip) : ip ∈ publicIps flat := by
  obtain ⟨a, member, found⟩ := List.exists_of_findSome?_eq_some own
  exact List.mem_append_left _ (List.mem_filterMap.mpr ⟨a, within member, found⟩)

theorem firstRelayIp_gathered {addrs flat : List String} (within : addrs ⊆ flat) {ip : String}
    (relay : firstRelayIp addrs = some ip) : ip ∈ publicIps flat := by
  obtain ⟨a, member, found⟩ := List.exists_of_findSome?_eq_some relay
  exact List.mem_append_right _ (List.mem_filterMap.mpr ⟨a, within member, found⟩)

theorem after_answer (geo : GeoIp) (round : Round) :
    (geo.after round).answer round.lookupHost = geo.answer round.lookupHost := by
  have resolved : (geo.gathered round).1.answer round.lookupHost = geo.answer round.lookupHost :=
    (foldl_resolveStep round.lookupHost geo [] (sortedDistinct (relayDnsNames round.addrs))).2
  have kept := fetchAll_dns round.fetchBatch ((geo.gathered round).1.batches (geo.gathered round).2)
    (geo.gathered round).1
  change ((geo.gathered round).1.warm round.fetchBatch (geo.gathered round).2).answer round.lookupHost = _
  rw [← resolved, warm_eq]
  funext name
  unfold answer
  rw [kept.1, kept.2]

theorem known_gathered (geo : GeoIp) (round : Round) {name ip : String} (member : name ∈ relayDnsNames round.addrs)
    (known : (geo.after round).dns.get? name = some ip) : ip ∈ (geo.gathered round).2 := by
  have answered : (geo.after round).answer round.lookupHost name = some ip :=
    Option.or_eq_some_iff.mpr (Or.inl known)
  rw [after_answer] at answered
  exact List.mem_append_right _ ((mem_resolved round.lookupHost geo _ ip).mpr ⟨name, member, answered⟩)

theorem consulted_gathered (geo : GeoIp) (round : Round) {addrs : List String} (within : addrs ⊆ round.addrs)
    {ip : String} (looked : (geo.after round).consulted addrs = some ip) : ip ∈ (geo.gathered round).2 := by
  rcases Option.or_eq_some_iff.mp looked with own | ⟨-, relayed⟩
  · exact List.mem_append_left _ (firstPublicIp_gathered within own)
  · rcases Option.or_eq_some_iff.mp relayed with relay | ⟨-, named⟩
    · exact List.mem_append_left _ (firstRelayIp_gathered within relay)
    · obtain ⟨a, member, found⟩ := List.exists_of_findSome?_eq_some named
      obtain ⟨name, dns, known⟩ := Option.bind_eq_some_iff.mp found
      exact known_gathered geo round (List.mem_filterMap.mpr ⟨a, within member, dns⟩) known

end GeoIp

/-! ### In a pass -/

def flatAddrs (addrs : HashMap String Observed) : List String := (addrs.entries.map Prod.snd).flatMap (·.addrs)

theorem flatAddrs_of_get? {addrs : HashMap String Observed} {id : String} {o : Observed}
    (seen : addrs.get? id = some o) : o.addrs ⊆ flatAddrs addrs := by
  intro a member
  have entry : (id, o) ∈ addrs.entries := (HashMap.mem_entries addrs id o).mpr seen
  exact List.mem_flatMap.mpr ⟨o, List.mem_map_of_mem entry, member⟩

def offered (world : World) (geo : GeoIp) (addrs : HashMap String Observed) : List String :=
  publicIps (flatAddrs addrs) ++ (geo.resolveRelays world.lookupHost (relayDnsNames (flatAddrs addrs))).2

/-- Whatever DNS cache a pass starts from and whatever its lookups answer, the entry that places an observed peer
is of an offered IP, and a cache that agrees on these places it the same. -/
theorem consulted_offered (world : World) (geo : GeoIp) (addrs : HashMap String Observed) {id : String}
    {o : Observed} (seen : addrs.get? id = some o) :
    (∀ ip, (warmedGeo world geo addrs).consulted o.addrs = some ip → ip ∈ offered world geo addrs) ∧
      ∀ cache : HashMap String Location,
        (∀ ip ∈ offered world geo addrs, cache.get? ip = (warmedGeo world geo addrs).cache.get? ip) →
          ((warmedGeo world geo addrs).withCache cache).locate o.addrs =
            (warmedGeo world geo addrs).locate o.addrs := by
  have asked : ∀ ip, (warmedGeo world geo addrs).consulted o.addrs = some ip → ip ∈ offered world geo addrs := by
    intro ip looked
    rw [warmedGeo_eq] at looked
    exact GeoIp.consulted_gathered geo ⟨flatAddrs addrs, world.lookupHost, world.fetchBatch⟩
      (flatAddrs_of_get? seen) looked
  refine ⟨asked, ?_⟩
  intro cache agree
  apply GeoIp.locate_withCache
  intro ip looked
  exact agree ip (asked ip looked)

theorem resolved_name_offered :
    let world : World := { World.scripted [] with lookupHost := fun _ => some [.v4 192 168 1 1, .v4 8 8 8 8] }
    let addrs : HashMap String Observed :=
      (∅ : HashMap String Observed).insert "peer"
        ⟨["/dns4/relay.example/tcp/8080/p2p/R/p2p-circuit"], .relayed, none, false⟩
    (warmedGeo world (GeoIp.fromEnv true ∅) addrs).consulted ["/dns4/relay.example/tcp/8080/p2p/R/p2p-circuit"] =
        some "8.8.8.8" ∧
      "8.8.8.8" ∈ offered world (GeoIp.fromEnv true ∅) addrs := by
  intro world addrs
  have seen : addrs.get? "peer" =
      some ⟨["/dns4/relay.example/tcp/8080/p2p/R/p2p-circuit"], .relayed, none, false⟩ := rfl
  have looked : (warmedGeo world (GeoIp.fromEnv true ∅) addrs).consulted
      ["/dns4/relay.example/tcp/8080/p2p/R/p2p-circuit"] = some "8.8.8.8" := by decide +kernel
  exact ⟨looked, (consulted_offered world (GeoIp.fromEnv true ∅) addrs seen).1 "8.8.8.8" looked⟩

end KwaaiNetMap
