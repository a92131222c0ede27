import KwaaiNetMap.Geoip.Locate

/-!
Without static pins a peer seen on its own addresses is placed by the first public IP among them, whether or not
that one could be located. `located_iff` says when the order of the addresses does not show.
-/

namespace KwaaiNetMap
open Collections

namespace GeoIp
variable (geo : GeoIp)

def Locates (addr : String) : Prop :=
  ∃ ip loc, publicIpOf addr.toList = some ip ∧ geo.cache.get? ip = some loc ∧ loc.status = "success"

def LocatedAnyway (addrs : List String) : Prop :=
  ((geo.locate addrs).status = "success" ↔ ∃ a ∈ addrs, geo.Locates a) ∧
    ∀ addrs', addrs'.Perm addrs → (geo.locate addrs').status = (geo.locate addrs).status

/-- What the cache says of the public IP of an address; an IP it does not know counts as failed. -/
def statusOf (addr : String) : Option String := (publicIpOf addr.toList).map fun ip => (geo.cached ip).status

def Agreed (addrs : List String) : Prop :=
  ∀ a ∈ addrs, ∀ b ∈ addrs, ∀ x y, geo.statusOf a = some x → geo.statusOf b = some y → x = y

end GeoIp

/-! ### Addresses of the peer's own -/

def OwnAddrs (addrs : List String) : Prop := ∀ a ∈ addrs, isCircuitAddr a = false

instance (addrs : List String) : Decidable (OwnAddrs addrs) :=
  inferInstanceAs (Decidable (∀ a ∈ addrs, isCircuitAddr a = false))

theorem relayPart_own {addr : String} (own : isCircuitAddr addr = false) : relayPart addr.toList = none := by
  rw [relayPart, Option.map_eq_none_iff]
  exact Option.isNone_iff_eq_none.mp (Option.isSome_eq_false_iff.mp own)

theorem locate_own {geo : GeoIp} (statics : geo.statics.isEmpty = true) {addrs : List String} (own : OwnAddrs addrs) :
    geo.locate addrs = ((firstPublicIp addrs).map geo.cached).getD Location.unknown := by
  have static : geo.staticFor addrs = none := if_pos statics
  have relayIp : firstRelayIp addrs = none :=
    List.findSome?_eq_none_iff.mpr fun a member => by rw [relayIpOf, relayPart_own (own a member)]; rfl
  have relayName : (addrs.findSome? fun a => (relayDnsOf a.toList).bind geo.dns.get?) = none :=
    List.findSome?_eq_none_iff.mpr fun a member => by rw [relayDnsOf, relayPart_own (own a member)]; rfl
  have circuit : addrs.any isCircuitAddr = false := by simpa using fun a member => own a member
  unfold GeoIp.locate
  rw [static]
  dsimp only
  cases firstPublicIp addrs with
  | some ip => rfl
  | none =>
    rw [relayIp, relayName]
    simp [circuit]

theorem locate_own_status {geo : GeoIp} (statics : geo.statics.isEmpty = true) {addrs : List String}
    (own : OwnAddrs addrs) : (geo.locate addrs).status = (addrs.findSome? geo.statusOf).getD "fail" := by
  have first : (firstPublicIp addrs).map (fun ip => (geo.cached ip).status) = addrs.findSome? geo.statusOf :=
    List.map_findSome?
  rw [locate_own statics own, ← first]
  cases firstPublicIp addrs <;> rfl

theorem locates_iff {geo : GeoIp} {addr : String} : geo.Locates addr ↔ geo.statusOf addr = some "success" := by
  unfold GeoIp.Locates GeoIp.statusOf GeoIp.cached
  rw [Option.map_eq_some_iff]
  constructor
  · rintro ⟨ip, loc, read, held, located⟩
    exact ⟨ip, read, by rw [held]; exact located⟩
  · rintro ⟨ip, read, located⟩
    cases held : geo.cache.get? ip with
    | none =>
      rw [held] at located
      exact absurd located (by decide)
    | some loc =>
      rw [held] at located
      exact ⟨ip, loc, read, held, located⟩

/-! ### The order of the addresses -/

theorem OwnAddrs.perm {addrs addrs' : List String} (own : OwnAddrs addrs) (perm : addrs'.Perm addrs) :
    OwnAddrs addrs' := fun a member => own a (perm.mem_iff.mp member)

theorem locate_front {geo : GeoIp} (statics : geo.statics.isEmpty = true) {addrs : List String} (own : OwnAddrs addrs)
    {a status : String} (member : a ∈ addrs) (read : geo.statusOf a = some status) :
    ∃ addrs', addrs'.Perm addrs ∧ (geo.locate addrs').status = status := by
  obtain ⟨before, after, rfl⟩ := List.append_of_mem member
  have front : (a :: (before ++ after)).Perm (before ++ a :: after) := List.perm_middle.symm
  refine ⟨a :: (before ++ after), front, ?_⟩
  rw [locate_own_status statics (own.perm front), List.findSome?_cons, read]
  rfl

theorem agreed_status {geo : GeoIp} {addrs : List String} (agreed : geo.Agreed addrs) {a status : String}
    (member : a ∈ addrs) (read : geo.statusOf a = some status) : addrs.findSome? geo.statusOf = some status := by
  cases found : addrs.findSome? geo.statusOf with
  | none => exact absurd (List.findSome?_eq_none_iff.mp found a member) (by simp [read])
  | some first =>
    obtain ⟨b, listed, readB⟩ := List.exists_of_findSome?_eq_some found
    rw [agreed b listed a member first status readB read]

/-- The order of a peer's own addresses decides nothing exactly when the cache says the same of all their public
IPs. -/
theorem located_iff {geo : GeoIp} (statics : geo.statics.isEmpty = true) {addrs : List String} (own : OwnAddrs addrs) :
    geo.LocatedAnyway addrs ↔ geo.Agreed addrs := by
  constructor
  · rintro ⟨-, same⟩ a first b second x y readA readB
    obtain ⟨addrs', perm, status⟩ := locate_front statics own first readA
    obtain ⟨addrs'', perm', status'⟩ := locate_front statics own second readB
    rw [← status, ← status', same addrs' perm, same addrs'' perm']
  · intro agreed
    constructor
    · rw [locate_own_status statics own]
      simp only [locates_iff]
      constructor
      · intro located
        cases found : addrs.findSome? geo.statusOf with
        | none =>
          rw [found] at located
          exact absurd located (by decide)
        | some status =>
          rw [found] at located
          obtain ⟨a, member, read⟩ := List.exists_of_findSome?_eq_some found
          exact ⟨a, member, read.trans (congrArg some located)⟩
      · rintro ⟨a, member, read⟩
        rw [agreed_status agreed member read]
        rfl
    · intro addrs' perm
      rw [locate_own_status statics own, locate_own_status statics (own.perm perm)]
      cases found : addrs'.findSome? geo.statusOf with
      | none =>
        rw [List.findSome?_eq_none_iff.mpr fun a member =>
          List.findSome?_eq_none_iff.mp found a (perm.mem_iff.mpr member)]
      | some status =>
        obtain ⟨a, member, read⟩ := List.exists_of_findSome?_eq_some found
        rw [agreed_status agreed (perm.mem_iff.mp member) read]

def halfLocated : GeoIp :=
  { cache := (HashMap.insert ∅ "1.2.3.4" Location.unknown).insert "5.6.7.8" { status := "success", city := "Austin" }
    dns := ∅, enabled := true, statics := ∅ }

theorem located_of_one_address : halfLocated.LocatedAnyway ["/ip4/5.6.7.8/tcp/4001", "/ip4/10.0.0.1/tcp/4001"] := by
  refine (located_iff (by decide) (by decide +kernel)).mpr ?_
  have read : ∀ a ∈ ["/ip4/5.6.7.8/tcp/4001", "/ip4/10.0.0.1/tcp/4001"], ∀ x, halfLocated.statusOf a = some x →
      x = "success" := by
    have only : ∀ a ∈ ["/ip4/5.6.7.8/tcp/4001", "/ip4/10.0.0.1/tcp/4001"],
        halfLocated.statusOf a = none ∨ halfLocated.statusOf a = some "success" := by decide +kernel
    intro a member x found
    rcases only a member with nothing | success
    · exact absurd found (by simp [nothing])
    · exact Option.some.inj (found.symm.trans success)
  intro a first b second x y readA readB
  rw [read a first x readA, read b second y readB]

/-- The same two addresses in both orders: the peer is located in one of them. -/
theorem located_by_order :
    (halfLocated.locate ["/ip4/5.6.7.8/tcp/4001", "/ip4/1.2.3.4/tcp/4001"]).status = "success" ∧
      (halfLocated.locate ["/ip4/1.2.3.4/tcp/4001", "/ip4/5.6.7.8/tcp/4001"]).status = "fail" ∧
      halfLocated.Locates "/ip4/5.6.7.8/tcp/4001" ∧
      ¬ halfLocated.LocatedAnyway ["/ip4/1.2.3.4/tcp/4001", "/ip4/5.6.7.8/tcp/4001"] := by
  have located : (halfLocated.locate ["/ip4/5.6.7.8/tcp/4001", "/ip4/1.2.3.4/tcp/4001"]).status = "success" := by
    decide +kernel
  have failed : (halfLocated.locate ["/ip4/1.2.3.4/tcp/4001", "/ip4/5.6.7.8/tcp/4001"]).status = "fail" := by
    decide +kernel
  refine ⟨located, failed, locates_iff.mpr (by decide +kernel), fun anyway => ?_⟩
  have same := anyway.2 _ (List.Perm.swap _ _ [])
  rw [located, failed] at same
  exact absurd same (by decide)

end KwaaiNetMap
