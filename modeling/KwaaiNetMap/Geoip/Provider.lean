import KwaaiNetMap.Geoip.Ranges
import KwaaiNetMap.Geoip.RoundTrip
import KwaaiNetMap.Crawler.Pass
import KwaaiNetMap.Systems.Runs

/-!
Each pass gathers the public addresses it saw and those its relays' names resolve to, and posts them in
batches. `sent_outside_iff`: over any run of passes nothing reserved is posted exactly when no pass
meets an address of a range the filter misses.
-/

namespace KwaaiNetMap
open Collections Systems

structure Round where
  addrs : List String
  lookupHost : String → Option (List IpAddr)
  fetchBatch : List String → Option (List GeoIp.ApiEntry)

namespace GeoIp

def fromEnv (enabled : Bool) (statics : HashMap String Location) : GeoIp :=
  { cache := ∅, dns := ∅, enabled, statics }

def gathered (geo : GeoIp) (round : Round) : GeoIp × List String :=
  let (geo, resolved) := geo.resolveRelays round.lookupHost (relayDnsNames round.addrs)
  (geo, publicIps round.addrs ++ resolved)

def batches (geo : GeoIp) (ips : List String) : List (List String) :=
  if !geo.enabled ∨ geo.cache.entries.length ≥ cacheLimit then [] else (geo.pending ips).toChunks batchLimit

def after (geo : GeoIp) (round : Round) : GeoIp :=
  let (geo, ips) := geo.gathered round
  geo.warm round.fetchBatch ips

theorem warm_eq (geo : GeoIp) (fetchBatch : List String → Option (List ApiEntry)) (ips : List String) :
    geo.warm fetchBatch ips = fetchAll fetchBatch (geo.batches ips) geo := by
  unfold warm batches
  split <;> rfl

end GeoIp

theorem warmedGeo_eq (world : World) (geo : GeoIp) (addrs : HashMap String Observed) :
    warmedGeo world geo addrs =
      geo.after ⟨(addrs.entries.map Prod.snd).flatMap (·.addrs), world.lookupHost, world.fetchBatch⟩ := rfl

/-! ### What is gathered -/

def dialedIp (addr : List Char) : Option IpAddr :=
  if Text.contains circuitMark addr then none else (ipOf addr).bind fun raw => IpAddr.parse raw.toList

def Names (addr : String) (ip : IpAddr) : Prop :=
  dialedIp addr.toList = some ip ∨ (relayPart addr.toList).bind dialedIp = some ip

theorem publicIpOf_iff (addr : List Char) (ip : IpAddr) :
    (∃ raw, publicIpOf addr = some raw ∧ IpAddr.parse raw.toList = some ip) ↔
      dialedIp addr = some ip ∧ ip.isPublic = true := by
  unfold publicIpOf dialedIp
  split
  · simp
  · cases own : ipOf addr with
    | none => simp
    | some raw =>
      cases read : IpAddr.parse raw.toList with
      | none => simp [read]
      | some found =>
        by_cases shown : found.isPublic = true
        · simp only [Option.bind_eq_bind, Option.bind_some, read, if_pos shown]
          constructor
          · rintro ⟨text, same, parsed⟩
            obtain rfl := Option.some.inj same
            obtain rfl := Option.some.inj (read.symm.trans parsed)
            exact ⟨rfl, shown⟩
          · rintro ⟨same, -⟩
            obtain rfl := Option.some.inj same
            exact ⟨raw, rfl, read⟩
        · simp only [Option.bind_eq_bind, Option.bind_some, read, if_neg shown]
          constructor
          · rintro ⟨text, impossible, -⟩
            cases impossible
          · rintro ⟨same, public_⟩
            obtain rfl := Option.some.inj same
            exact absurd public_ shown

theorem publicIpOf_parses {addr : List Char} {raw : String} (own : publicIpOf addr = some raw) :
    (IpAddr.parse raw.toList).isSome = true := by
  unfold publicIpOf at own
  split at own
  · cases own
  · simp only [Option.bind_eq_bind, Option.bind_eq_some_iff] at own
    obtain ⟨text, -, ip, read, shown⟩ := own
    split at shown
    · obtain rfl := Option.some.inj shown
      rw [read]
      rfl
    · cases shown

theorem relayIpOf_iff (addr : List Char) (ip : IpAddr) :
    (∃ raw, relayIpOf addr = some raw ∧ IpAddr.parse raw.toList = some ip) ↔
      (relayPart addr).bind dialedIp = some ip ∧ ip.isPublic = true := by
  unfold relayIpOf
  cases relayPart addr with
  | none => simp
  | some relay => exact publicIpOf_iff relay ip

theorem publicIps_parse {addrs : List String} {raw : String} (member : raw ∈ publicIps addrs) :
    (IpAddr.parse raw.toList).isSome = true := by
  rcases List.mem_append.mp member with own | relay
  · obtain ⟨a, -, found⟩ := List.mem_filterMap.mp own
    exact publicIpOf_parses found
  · obtain ⟨a, -, found⟩ := List.mem_filterMap.mp relay
    obtain ⟨part, -, found⟩ := Option.bind_eq_some_iff.mp found
    exact publicIpOf_parses found

theorem mem_publicIps (addrs : List String) (ip : IpAddr) :
    (∃ raw ∈ publicIps addrs, IpAddr.parse raw.toList = some ip) ↔
      ∃ a ∈ addrs, Names a ip ∧ ip.isPublic = true := by
  simp only [publicIps, List.mem_append, List.mem_filterMap, Names, or_and_right, ← publicIpOf_iff,
    ← relayIpOf_iff]
  constructor
  · rintro ⟨raw, ⟨⟨a, member, found⟩, read⟩ | ⟨⟨a, member, found⟩, read⟩⟩
    · exact ⟨a, member, Or.inl ⟨raw, found, read⟩⟩
    · exact ⟨a, member, Or.inr ⟨raw, found, read⟩⟩
  · rintro ⟨a, member, ⟨raw, found, read⟩ | ⟨raw, found, read⟩⟩
    · exact ⟨raw, Or.inl ⟨⟨a, member, found⟩, read⟩⟩
    · exact ⟨raw, Or.inr ⟨⟨a, member, found⟩, read⟩⟩

theorem mem_sortedDistinct (names : List String) (name : String) :
    name ∈ GeoIp.sortedDistinct names ↔ name ∈ names := by
  have sorted := List.pairwise_insertionSort (· ≤ ·) names
  rw [GeoIp.sortedDistinct, sorted.destutter_eq_dedup, List.mem_dedup, List.mem_insertionSort]

namespace GeoIp
variable (lookupHost : String → Option (List IpAddr))

def lookup (name : String) : Option IpAddr :=
  (lookupHost name).bind (fun resolved => resolved.find? IpAddr.isPublic)

def answer (geo : GeoIp) (name : String) : Option String :=
  (geo.dns.get? name).or (if geo.enabled then (lookup lookupHost name).map IpAddr.print else none)

theorem resolveStep_cases (geo : GeoIp) (out : List String) (name : String) :
    (∃ ip, geo.dns.get? name = some ip ∧ resolveStep lookupHost (geo, out) name = (geo, out ++ [ip])) ∨
      (∃ ip, geo.dns.get? name = none ∧ geo.enabled = true ∧ lookup lookupHost name = some ip ∧
        resolveStep lookupHost (geo, out) name =
          ({ geo with dns := geo.dns.insert name ip.print }, out ++ [ip.print])) ∨
      (geo.answer lookupHost name = none ∧ resolveStep lookupHost (geo, out) name = (geo, out)) := by
  unfold resolveStep answer
  cases cached : geo.dns.get? name with
  | some ip => exact Or.inl ⟨ip, rfl, by simp [cached]⟩
  | none =>
    cases on : geo.enabled with
    | false => exact Or.inr (Or.inr ⟨by simp, by simp [cached, on]⟩)
    | true =>
      cases found : lookup lookupHost name with
      | none =>
        refine Or.inr (Or.inr ⟨by simp, ?_⟩)
        unfold lookup at found
        simp [cached, on, found]
      | some ip =>
        refine Or.inr (Or.inl ⟨ip, rfl, rfl, rfl, ?_⟩)
        unfold lookup at found
        simp [cached, on, found]

theorem resolveStep_out (geo : GeoIp) (out : List String) (name : String) :
    (resolveStep lookupHost (geo, out) name).2 = out ++ (geo.answer lookupHost name).toList := by
  rcases resolveStep_cases lookupHost geo out name with
    ⟨ip, known, step⟩ | ⟨ip, unknown, on, found, step⟩ | ⟨unanswered, step⟩
  · rw [step, answer, known]
    rfl
  · rw [step, answer, unknown, if_pos on, found]
    rfl
  · rw [step, unanswered]
    exact (List.append_nil out).symm

theorem resolveStep_answer (geo : GeoIp) (out : List String) (name : String) :
    (resolveStep lookupHost (geo, out) name).1.answer lookupHost = geo.answer lookupHost := by
  rcases resolveStep_cases lookupHost geo out name with ⟨ip, -, step⟩ | ⟨ip, unknown, on, found, step⟩ | ⟨-, step⟩
  · rw [step]
  · rw [step]
    funext other
    by_cases same : other = name
    · subst same
      simp [answer, HashMap.get?_insert, unknown, on, found]
    · simp [answer, HashMap.get?_insert, same]
  · rw [step]

theorem foldl_resolveStep (geo : GeoIp) (out : List String) (names : List String) :
    (names.foldl (resolveStep lookupHost) (geo, out)).2 =
        out ++ names.filterMap (geo.answer lookupHost) ∧
      (names.foldl (resolveStep lookupHost) (geo, out)).1.answer lookupHost = geo.answer lookupHost := by
  induction names generalizing geo out with
  | nil => simp
  | cons name names ih =>
    obtain ⟨rest, same⟩ := ih (resolveStep lookupHost (geo, out) name).1 (resolveStep lookupHost (geo, out) name).2
    rw [List.foldl_cons]
    constructor
    · rw [rest, resolveStep_out, resolveStep_answer, List.append_assoc]
      cases answered : geo.answer lookupHost name <;> simp [answered]
    · rw [same, resolveStep_answer]

theorem mem_resolved (geo : GeoIp) (names : List String) (text : String) :
    text ∈ (geo.resolveRelays lookupHost names).2 ↔ ∃ name ∈ names, geo.answer lookupHost name = some text := by
  unfold resolveRelays
  rw [(foldl_resolveStep lookupHost geo [] (sortedDistinct names)).1, List.nil_append, List.mem_filterMap]
  simp only [mem_sortedDistinct]

/-! ### What is posted -/

theorem fetchAll_dns (fetchBatch : List String → Option (List ApiEntry)) (chunks : List (List String)) (geo : GeoIp) :
    (fetchAll fetchBatch chunks geo).dns = geo.dns ∧ (fetchAll fetchBatch chunks geo).enabled = geo.enabled := by
  induction chunks generalizing geo with
  | nil => exact ⟨rfl, rfl⟩
  | cons chunk chunks ih =>
    unfold fetchAll
    split
    · exact ih _
    · exact ⟨rfl, rfl⟩

theorem toChunks_go_flatten {α : Type*} (n : Nat) (xs : List α) (chunk : Array α) (done : Array (List α)) :
    (List.toChunks.go n xs chunk done).flatten = done.toList.flatten ++ chunk.toList ++ xs := by
  induction xs generalizing chunk done with
  | nil => simp [List.toChunks.go]
  | cons x xs ih =>
    unfold List.toChunks.go
    split <;> simp [ih]

theorem flatten_toChunks {α : Type*} (n : Nat) (xs : List α) : (xs.toChunks n).flatten = xs := by
  unfold List.toChunks
  split
  · rfl
  · simp
  · simp [toChunks_go_flatten]

theorem batches_sub {geo : GeoIp} {ips batch : List String} (member : batch ∈ geo.batches ips) : batch ⊆ ips := by
  unfold batches at member
  split at member
  · cases member
  · intro text inside
    have gathered : text ∈ geo.pending ips := by
      rw [← flatten_toChunks batchLimit (geo.pending ips)]
      exact List.mem_flatten.mpr ⟨batch, member, inside⟩
    exact List.mem_of_mem_filter ((mem_sortedDistinct _ _).mp gathered)

theorem resolveStep_known (geo : GeoIp) (out : List String) (name : String) {key text : String}
    (known : (resolveStep lookupHost (geo, out) name).1.dns.get? key = some text) :
    geo.dns.get? key = some text ∨ text ∈ (resolveStep lookupHost (geo, out) name).2 := by
  rcases resolveStep_cases lookupHost geo out name with ⟨ip, -, step⟩ | ⟨ip, -, -, -, step⟩ | ⟨-, step⟩
  · rw [step] at known
    exact Or.inl known
  · rw [step] at known ⊢
    rw [HashMap.get?_insert] at known
    split at known
    · obtain rfl := Option.some.inj known
      exact Or.inr (List.mem_append_right out (List.mem_singleton_self _))
    · exact Or.inl known
  · rw [step] at known
    exact Or.inl known

theorem resolveRelays_known (geo : GeoIp) (names : List String) {key text : String}
    (known : (geo.resolveRelays lookupHost names).1.dns.get? key = some text) :
    geo.dns.get? key = some text ∨ text ∈ (geo.resolveRelays lookupHost names).2 := by
  unfold resolveRelays at known ⊢
  generalize sortedDistinct names = sorted at known ⊢
  suffices ∀ out, ((sorted.foldl (resolveStep lookupHost) (geo, out)).1.dns.get? key = some text →
      geo.dns.get? key = some text ∨ text ∈ (sorted.foldl (resolveStep lookupHost) (geo, out)).2) from
    this [] known
  clear known
  induction sorted generalizing geo with
  | nil => exact fun out known => Or.inl known
  | cons name sorted ih =>
    intro out known
    rw [List.foldl_cons] at known ⊢
    rcases ih _ _ known with before | posted
    · rcases resolveStep_known lookupHost geo out name before with earlier | now
      · exact Or.inl earlier
      · refine Or.inr ?_
        rw [(foldl_resolveStep lookupHost _ _ sorted).1]
        exact List.mem_append_left _ now
    · exact Or.inr posted

end GeoIp

/-! ### Nothing reserved is posted -/

def Outside (text : String) : Prop := ∃ ip, IpAddr.parse text.toList = some ip ∧ ¬ ip.Reserved

namespace GeoIp

def SendsOutside (geo : GeoIp) (round : Round) : Prop :=
  (∀ text ∈ (geo.gathered round).2, Outside text) ∧
    ∀ batch ∈ (geo.gathered round).1.batches (geo.gathered round).2, ∀ text ∈ batch, Outside text

/-- No address the pass saw is dialed at an IPv6 address of a missed range, and no name it has to look up
answers one first among the public. -/
def Clear (geo : GeoIp) (round : Round) : Prop :=
  (∀ a ∈ round.addrs, ∀ ip, Names a ip → ¬ ip.Missed) ∧
    (geo.enabled = true → ∀ name ∈ relayDnsNames round.addrs, geo.dns.get? name = none →
      ∀ ip, lookup round.lookupHost name = some ip → ¬ ip.Missed)

def KnownOutside (geo : GeoIp) : Prop := ∀ name text, geo.dns.get? name = some text → Outside text

end GeoIp

namespace IpAddr

theorem outside_print {ip : IpAddr} : Outside ip.print ↔ ¬ ip.Reserved := by
  constructor
  · rintro ⟨read, parsed, outside⟩
    rw [parse_print] at parsed
    exact Option.some.inj parsed ▸ outside
  · exact fun outside => ⟨ip, parse_print ip, outside⟩

end IpAddr

namespace GeoIp

theorem lookup_isPublic {lookupHost : String → Option (List IpAddr)} {name : String} {ip : IpAddr}
    (found : lookup lookupHost name = some ip) : ip.isPublic = true := by
  obtain ⟨resolved, -, first⟩ := Option.bind_eq_some_iff.mp found
  exact List.find?_some first

theorem gathered_outside_iff {geo : GeoIp} (known : geo.KnownOutside) (round : Round) :
    (∀ text ∈ (geo.gathered round).2, Outside text) ↔ geo.Clear round := by
  constructor
  · intro all
    constructor
    · intro a member ip named missed
      obtain ⟨raw, posted, read⟩ := (mem_publicIps round.addrs ip).mpr ⟨a, member, named, missed.isPublic⟩
      obtain ⟨found, parsed, outside⟩ := all raw (List.mem_append_left _ posted)
      obtain rfl := Option.some.inj (read.symm.trans parsed)
      exact outside ((IpAddr.reserved_iff_missed missed.isPublic).mpr missed)
    · intro on name member unknown ip answered missed
      have resolves : geo.answer round.lookupHost name = some ip.print := by
        simp [answer, unknown, on, answered]
      have posted := (mem_resolved round.lookupHost geo _ _).mpr ⟨name, member, resolves⟩
      have outside := IpAddr.outside_print.mp (all ip.print (List.mem_append_right _ posted))
      exact outside ((IpAddr.reserved_iff_missed missed.isPublic).mpr missed)
  · rintro ⟨dialed, looked⟩ text posted
    rcases List.mem_append.mp posted with seen | resolved
    · obtain ⟨ip, read⟩ := Option.isSome_iff_exists.mp (publicIps_parse seen)
      obtain ⟨a, member, named, shown⟩ := (mem_publicIps round.addrs ip).mp ⟨text, seen, read⟩
      exact ⟨ip, read, mt (IpAddr.reserved_iff_missed shown).mp (dialed a member ip named)⟩
    · obtain ⟨name, member, answered⟩ := (mem_resolved round.lookupHost geo _ _).mp resolved
      unfold answer at answered
      rcases Option.or_eq_some_iff.mp answered with cached | ⟨unknown, answered⟩
      · exact known name text cached
      · split at answered
        · rename_i on
          obtain ⟨ip, found, rfl⟩ := Option.map_eq_some_iff.mp answered
          have shown := lookup_isPublic found
          exact IpAddr.outside_print.mpr
            (mt (IpAddr.reserved_iff_missed shown).mp (looked on name member unknown ip found))
        · cases answered

theorem sendsOutside_iff {geo : GeoIp} (known : geo.KnownOutside) (round : Round) :
    geo.SendsOutside round ↔ geo.Clear round := by
  rw [← gathered_outside_iff known round]
  exact ⟨And.left, fun all => ⟨all, fun batch member text inside => all text (batches_sub member inside)⟩⟩

theorem knownOutside_after {geo : GeoIp} (known : geo.KnownOutside) {round : Round}
    (sends : geo.SendsOutside round) : (geo.after round).KnownOutside := by
  intro name text found
  change ((geo.gathered round).1.warm round.fetchBatch (geo.gathered round).2).dns.get? name = some text at found
  rw [warm_eq, (fetchAll_dns _ _ _).1] at found
  rcases resolveRelays_known round.lookupHost geo (relayDnsNames round.addrs) found with before | now
  · exact known name text before
  · exact sends.1 text (List.mem_append_right _ now)

/-- From a fresh process on, no pass posts a reserved address exactly when every pass is clear of the ranges
the filter misses. -/
theorem sent_outside_iff (enabled : Bool) (statics : HashMap String Location) (rounds : List Round) :
    Along after SendsOutside (fromEnv enabled statics) rounds ↔ Along after Clear (fromEnv enabled statics) rounds := by
  have none : (fromEnv enabled statics).KnownOutside := by
    intro name text known
    cases known
  exact along_iff (I := KnownOutside) (fun geo round known sends => knownOutside_after known sends)
    (fun geo round known => sendsOutside_iff known round) none rounds

/-- A link-local address and the IPv4-mapped form of a LAN one are posted. -/
theorem link_local_and_mapped_posted :
    let geo := fromEnv true ∅
    let round : Round := ⟨["/ip6/fe80::1/tcp/8080", "/ip6/::ffff:192.168.1.10/tcp/8080"], fun _ => none, fun _ => none⟩
    (geo.gathered round).1.batches (geo.gathered round).2 = [["::ffff:192.168.1.10", "fe80::1"]] ∧
      (∃ ip, IpAddr.parse "fe80::1".toList = some ip ∧ ip.Reserved) ∧
      (∃ ip, IpAddr.parse "::ffff:192.168.1.10".toList = some ip ∧ ip.Reserved) ∧
      ¬ geo.SendsOutside round := by
  have mapped : ∃ ip, IpAddr.parse "::ffff:192.168.1.10".toList = some ip ∧ ip.Reserved :=
    ⟨.v6 ⟨[0, 0, 0, 0, 0, 0xffff, 0xc0a8, 0x010a], rfl⟩, by decide +kernel, by decide +kernel⟩
  refine ⟨by decide +kernel, ⟨.v6 ⟨[0xfe80, 0, 0, 0, 0, 0, 0, 1], rfl⟩, by decide +kernel, by decide +kernel⟩,
    mapped, ?_⟩
  rintro ⟨all, -⟩
  obtain ⟨ip, read, reserved⟩ := mapped
  obtain ⟨found, parsed, outside⟩ := all "::ffff:192.168.1.10" (by decide +kernel)
  obtain rfl := Option.some.inj (read.symm.trans parsed)
  exact outside reserved

end GeoIp

end KwaaiNetMap
