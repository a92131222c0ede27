import KwaaiNetMap.Collections.Chunks
import KwaaiNetMap.Geoip.Provider
import KwaaiNetMap.Systems.Memo

/-!
A pass posts the addresses the cache knows nothing of, a hundred at a time, until a post fails, and looks up
the relay names it has no address for. With a provider that answers for what it was asked, no address is
posted again once it was answered and no pin ever changes (`posted_once`).
-/

namespace KwaaiNetMap
open Collections Systems

namespace GeoIp

structure Post where
  batch : List String
  reply : Option (List ApiEntry)

/-- The posts `fetchAll` makes: the first that fails is the last. -/
def posts (fetchBatch : List String → Option (List ApiEntry)) : List (List String) → List Post
  | [] => []
  | chunk :: chunks =>
    match fetchBatch chunk with
    | some entries => ⟨chunk, some entries⟩ :: posts fetchBatch chunks
    | none => [⟨chunk, none⟩]

def posted (geo : GeoIp) (round : Round) : List Post :=
  posts round.fetchBatch ((geo.gathered round).1.batches (geo.gathered round).2)

def afterAll (geo : GeoIp) (rounds : List Round) : GeoIp := rounds.foldl after geo

def postedOver : GeoIp → List Round → List Post
  | _, [] => []
  | geo, round :: rounds => geo.posted round ++ (geo.after round).postedOver rounds

def fresh (geo : GeoIp) (round : Round) : List String := (geo.gathered round).1.pending (geo.gathered round).2

def lookups (lookupHost : String → Option (List IpAddr)) : GeoIp → List String → List (Ask String String)
  | _, [] => []
  | geo, name :: names =>
    let rest := lookups lookupHost (resolveStep lookupHost (geo, []) name).1 names
    if (geo.dns.get? name).isNone ∧ geo.enabled = true then
      ⟨[name], ((lookup lookupHost name).map fun ip => (name, ip.print)).toList⟩ :: rest
    else rest

def lookedUp (geo : GeoIp) (round : Round) : List (Ask String String) :=
  lookups round.lookupHost geo (sortedDistinct (relayDnsNames round.addrs))

def lookedUpOver : GeoIp → List Round → List (Ask String String)
  | _, [] => []
  | geo, round :: rounds => geo.lookedUp round ++ (geo.after round).lookedUpOver rounds

def Post.ask (post : Post) : Ask String Location :=
  ⟨post.batch, (post.reply.getD []).map fun e => (e.query, e.location)⟩

end GeoIp

/-- A batch is answered for the addresses in it. -/
def Round.Honest (round : Round) : Prop :=
  ∀ batch entries, round.fetchBatch batch = some entries → ∀ e ∈ entries, e.query ∈ batch

namespace GeoIp

/-! ### One pass -/

theorem resolveStep_frame (lookupHost : String → Option (List IpAddr)) (geo : GeoIp) (out : List String)
    (name : String) :
    (resolveStep lookupHost (geo, out) name).1 = (resolveStep lookupHost (geo, []) name).1 ∧
      (resolveStep lookupHost (geo, out) name).1.cache = geo.cache ∧
      (resolveStep lookupHost (geo, out) name).1.enabled = geo.enabled ∧
      (resolveStep lookupHost (geo, out) name).1.statics = geo.statics := by
  unfold resolveStep
  cases known : geo.dns.get? name with
  | some ip => simp [known]
  | none =>
    cases on : geo.enabled with
    | false => simp [known, on]
    | true => cases (lookupHost name).bind fun resolved => resolved.find? IpAddr.isPublic <;> simp [known, on]

theorem foldl_resolveStep_frame (lookupHost : String → Option (List IpAddr)) (names : List String) (geo : GeoIp)
    (out : List String) :
    (names.foldl (resolveStep lookupHost) (geo, out)).1.cache = geo.cache ∧
      (names.foldl (resolveStep lookupHost) (geo, out)).1.enabled = geo.enabled ∧
      (names.foldl (resolveStep lookupHost) (geo, out)).1.statics = geo.statics := by
  induction names generalizing geo out with
  | nil => exact ⟨rfl, rfl, rfl⟩
  | cons name names ih =>
    obtain ⟨-, cache, enabled, statics⟩ := resolveStep_frame lookupHost geo out name
    obtain ⟨cache', enabled', statics'⟩ := ih (resolveStep lookupHost (geo, out) name).1
      (resolveStep lookupHost (geo, out) name).2
    exact ⟨cache'.trans cache, enabled'.trans enabled, statics'.trans statics⟩

theorem gathered_frame (geo : GeoIp) (round : Round) :
    (geo.gathered round).1.cache = geo.cache ∧ (geo.gathered round).1.enabled = geo.enabled ∧
      (geo.gathered round).1.statics = geo.statics :=
  foldl_resolveStep_frame round.lookupHost _ geo []

theorem insert_remembers {κ ν : Type*} [DecidableEq κ] (map : HashMap κ ν) (k : κ) (v : ν) :
    (map.insert k v).get? = remember map.get? (k, v) := by
  funext key
  rw [HashMap.get?_insert, remember, Function.update_apply]

theorem get?_insertEntries (geo : GeoIp) (entries : List ApiEntry) :
    (geo.insertEntries entries).cache.get? =
      learn geo.cache.get? ⟨[], entries.map fun e => (e.query, e.location)⟩ := by
  have fold (cache : HashMap String Location) :
      (entries.foldl (fun cache e => cache.insert e.query e.location) cache).get? =
        (entries.map fun e => (e.query, e.location)).foldl remember cache.get? := by
    induction entries generalizing cache with
    | nil => rfl
    | cons e entries ih =>
      rw [List.foldl_cons, ih, insert_remembers]
      rfl
  exact fold geo.cache

theorem fetchAll_learns (fetchBatch : List String → Option (List ApiEntry)) (chunks : List (List String))
    (geo : GeoIp) :
    (fetchAll fetchBatch chunks geo).cache.get? =
      ((posts fetchBatch chunks).map Post.ask).foldl learn geo.cache.get? := by
  induction chunks generalizing geo with
  | nil => rfl
  | cons chunk chunks ih =>
    unfold fetchAll posts
    cases answered : fetchBatch chunk with
    | none => rfl
    | some entries =>
      simp only
      rw [ih, get?_insertEntries]
      rfl

theorem after_learns (geo : GeoIp) (round : Round) :
    (geo.after round).cache.get? = ((geo.posted round).map Post.ask).foldl learn geo.cache.get? := by
  have frame := (gathered_frame geo round).1
  change ((geo.gathered round).1.warm round.fetchBatch (geo.gathered round).2).cache.get? = _
  rw [warm_eq, fetchAll_learns, frame]
  rfl

theorem sortedDistinct_strict (names : List String) : (sortedDistinct names).Pairwise (· < ·) := by
  have sorted := List.pairwise_insertionSort (· ≤ ·) names
  have distinct : (sortedDistinct names).Nodup := by
    rw [sortedDistinct, sorted.destutter_eq_dedup]
    exact List.nodup_dedup _
  have still : (sortedDistinct names).Pairwise (· ≤ ·) := sorted.sublist (List.destutter_sublist _ _)
  exact (still.and distinct).imp fun both => lt_of_le_of_ne both.1 both.2

theorem mem_fresh {geo : GeoIp} {round : Round} {ip : String} :
    ip ∈ geo.fresh round ↔ ip ∈ (geo.gathered round).2 ∧ geo.cache.get? ip = none := by
  rw [fresh, pending, mem_sortedDistinct, List.mem_filter, (gathered_frame geo round).1, Option.isNone_iff_eq_none]

theorem posts_batches (fetchBatch : List String → Option (List ApiEntry)) (chunks : List (List String)) :
    (posts fetchBatch chunks).map Post.batch <+: chunks ∧
      ∀ post ∈ posts fetchBatch chunks, fetchBatch post.batch = post.reply := by
  induction chunks with
  | nil => exact ⟨List.prefix_refl _, fun post member => nomatch member⟩
  | cons chunk chunks ih =>
    unfold posts
    cases answered : fetchBatch chunk with
    | none =>
      refine ⟨?_, ?_⟩
      · exact ⟨chunks, rfl⟩
      · intro post member
        rw [List.mem_singleton.mp member]
        exact answered
    | some entries =>
      refine ⟨?_, ?_⟩
      · exact List.cons_prefix_cons.mpr ⟨rfl, ih.1⟩
      · intro post member
        rcases List.mem_cons.mp member with rfl | later
        · exact answered
        · exact ih.2 post later

theorem flatten_batches_sublist (geo : GeoIp) (round : Round) :
    ((geo.posted round).map Post.batch).flatten <+: geo.fresh round := by
  have first := (posts_batches round.fetchBatch ((geo.gathered round).1.batches (geo.gathered round).2)).1
  obtain ⟨rest, split⟩ := first
  have planned : ((geo.gathered round).1.batches (geo.gathered round).2).flatten <+: geo.fresh round := by
    unfold batches
    split
    · exact List.nil_prefix
    · rw [flatten_toChunks]
      exact List.prefix_refl _
  refine List.IsPrefix.trans ⟨rest.flatten, ?_⟩ planned
  rw [← split, List.flatten_append]
  rfl

theorem prudent_of_disjoint {known : String → Option Location} {log : List Post}
    (apart : (log.map Post.batch).flatten.Nodup) (unknown : ∀ ip ∈ (log.map Post.batch).flatten, known ip = none)
    (honest : ∀ post ∈ log, ∀ entries, post.reply = some entries → ∀ e ∈ entries, e.query ∈ post.batch) :
    Along learn Prudent known (log.map Post.ask) := by
  induction log generalizing known with
  | nil => trivial
  | cons post log ih =>
    rw [List.map_cons, List.flatten_cons] at apart unknown
    obtain ⟨-, rest, disjoint⟩ := List.nodup_append.mp apart
    have answered : ∀ answer ∈ post.ask.answers, answer.1 ∈ post.batch := by
      intro answer member
      obtain ⟨e, stored, rfl⟩ := List.mem_map.mp member
      cases reply : post.reply with
      | none => rw [reply] at stored; cases stored
      | some entries =>
        rw [reply] at stored
        exact honest post List.mem_cons_self entries reply e stored
    refine ⟨⟨fun ip member => unknown ip (List.mem_append_left _ member), answered⟩, ih rest ?_ ?_⟩
    · intro ip member
      have other : ip ∉ post.ask.answers.map Prod.fst := by
        intro taught
        obtain ⟨answer, stored, rfl⟩ := List.mem_map.mp taught
        exact disjoint answer.1 (answered answer stored) answer.1 member rfl
      rw [learn, foldl_remember_other other]
      exact unknown ip (List.mem_append_right _ member)
    · exact fun later member => honest later (List.mem_cons_of_mem _ member)

theorem posted_prudent (geo : GeoIp) {round : Round} (honest : round.Honest) :
    Along learn Prudent geo.cache.get? ((geo.posted round).map Post.ask) := by
  have sub := flatten_batches_sublist geo round
  have strict : (geo.fresh round).Nodup := (sortedDistinct_strict _).imp fun less => ne_of_lt less
  refine prudent_of_disjoint (strict.sublist sub.sublist) ?_ ?_
  · exact fun ip member => (mem_fresh.mp (sub.subset member)).2
  · intro post member entries answered
    exact honest post.batch entries (((posts_batches _ _).2 post member).trans answered)

/-! ### A run of passes -/

theorem postedOver_prudent (geo : GeoIp) {rounds : List Round} (honest : ∀ round ∈ rounds, round.Honest) :
    Along learn Prudent geo.cache.get? ((geo.postedOver rounds).map Post.ask) := by
  induction rounds generalizing geo with
  | nil => trivial
  | cons round rounds ih =>
    rw [postedOver, List.map_append, along_append, ← after_learns]
    exact ⟨posted_prudent geo (honest round List.mem_cons_self),
      ih (geo.after round) fun later member => honest later (List.mem_cons_of_mem _ member)⟩

theorem afterAll_learns (geo : GeoIp) (rounds : List Round) :
    (geo.afterAll rounds).cache.get? = ((geo.postedOver rounds).map Post.ask).foldl learn geo.cache.get? := by
  induction rounds generalizing geo with
  | nil => rfl
  | cons round rounds ih =>
    rw [postedOver, List.map_append, List.foldl_append, ← after_learns]
    exact ih (geo.after round)

theorem lookups_learn (lookupHost : String → Option (List IpAddr)) (names : List String) (geo : GeoIp)
    (out : List String) :
    Along learn Prudent geo.dns.get? (lookups lookupHost geo names) ∧
      (names.foldl (resolveStep lookupHost) (geo, out)).1.dns.get? =
        (lookups lookupHost geo names).foldl learn geo.dns.get? := by
  induction names generalizing geo out with
  | nil => exact ⟨trivial, rfl⟩
  | cons name names ih =>
    obtain ⟨out', head⟩ : ∃ out', resolveStep lookupHost (geo, out) name =
        ((resolveStep lookupHost (geo, []) name).1, out') :=
      ⟨(resolveStep lookupHost (geo, out) name).2, Prod.ext (resolveStep_frame lookupHost geo out name).1 rfl⟩
    have next := ih (resolveStep lookupHost (geo, []) name).1 out'
    rw [List.foldl_cons, head]
    unfold lookups
    rcases resolveStep_cases lookupHost geo [] name with ⟨ip, known, step⟩ |
      ⟨ip, unknown, on, found, step⟩ | ⟨unanswered, step⟩
    · rw [step] at next
      rw [if_neg (by simp [known]), step]
      exact next
    · have learned : learn geo.dns.get? ⟨[name], [(name, ip.print)]⟩ = (geo.dns.insert name ip.print).get? :=
        (insert_remembers geo.dns name ip.print).symm
      rw [step] at next
      rw [if_pos ⟨by simp [unknown], on⟩, step, found]
      refine ⟨⟨⟨?_, ?_⟩, ?_⟩, ?_⟩
      · intro key member
        rw [List.mem_singleton.mp member]
        exact unknown
      · intro answer member
        rw [List.mem_singleton.mp member]
        exact List.mem_singleton_self name
      · exact learned.symm ▸ next.1
      · exact next.2.trans (congrArg (List.foldl learn · _) learned.symm)
    · rw [step] at next
      rw [step]
      split
      · rename_i asked
        have none : lookup lookupHost name = none := by
          unfold answer at unanswered
          rw [Option.isNone_iff_eq_none.mp asked.1, Option.none_or, if_pos asked.2] at unanswered
          exact Option.map_eq_none_iff.mp unanswered
        rw [none]
        refine ⟨⟨⟨?_, fun answer member => (nomatch member)⟩, next.1⟩, next.2⟩
        intro key member
        rw [List.mem_singleton.mp member]
        exact Option.isNone_iff_eq_none.mp asked.1
      · exact next

theorem after_dns (geo : GeoIp) (round : Round) :
    (geo.after round).dns.get? = (geo.lookedUp round).foldl learn geo.dns.get? := by
  change ((geo.gathered round).1.warm round.fetchBatch (geo.gathered round).2).dns.get? = _
  rw [warm_eq, (fetchAll_dns _ _ _).1]
  exact (lookups_learn round.lookupHost _ geo []).2

theorem lookedUpOver_learn (geo : GeoIp) (rounds : List Round) :
    Along learn Prudent geo.dns.get? (geo.lookedUpOver rounds) ∧
      (geo.afterAll rounds).dns.get? = (geo.lookedUpOver rounds).foldl learn geo.dns.get? := by
  induction rounds generalizing geo with
  | nil => exact ⟨trivial, rfl⟩
  | cons round rounds ih =>
    obtain ⟨prudent, learned⟩ := ih (geo.after round)
    rw [lookedUpOver, along_append, List.foldl_append, ← after_dns]
    exact ⟨⟨(lookups_learn round.lookupHost _ geo []).1, prudent⟩, learned⟩

theorem afterAll_append (geo : GeoIp) (before later : List Round) :
    geo.afterAll (before ++ later) = (geo.afterAll before).afterAll later := List.foldl_append

/-- Over any run of passes no address is posted again once a batch came back with its location, no relay name
is looked up again once it had an address, and neither a location nor an address ever changes. -/
theorem posted_once (enabled : Bool) (statics : HashMap String Location) (rounds : List Round)
    (honest : ∀ round ∈ rounds, round.Honest) :
    let start := fromEnv enabled statics
    ((start.postedOver rounds).Pairwise fun earlier later =>
        ∀ entries, earlier.reply = some entries → ∀ e ∈ entries, e.query ∉ later.batch) ∧
      ((start.lookedUpOver rounds).Pairwise fun earlier later =>
        ∀ answer ∈ earlier.answers, answer.1 ∉ later.keys) ∧
      ∀ before later, rounds = before ++ later →
        (∀ ip loc, (start.afterAll before).cache.get? ip = some loc →
          (start.afterAll rounds).cache.get? ip = some loc) ∧
        ∀ name ip, (start.afterAll before).dns.get? name = some ip →
          (start.afterAll rounds).dns.get? name = some ip := by
  intro start
  refine ⟨?_, asked_once (lookedUpOver_learn start rounds).1, ?_⟩
  · have once := List.pairwise_map.mp (asked_once (postedOver_prudent start honest))
    refine once.imp ?_
    intro earlier later apart entries answered e member
    refine apart (e.query, e.location) ?_
    rw [Post.ask, answered]
    exact List.mem_map_of_mem member
  · intro before later split
    rw [split] at honest ⊢
    rw [afterAll_append]
    refine ⟨fun ip loc known => ?_, fun name ip known => ?_⟩
    · rw [afterAll_learns]
      exact foldl_learn_keeps
        (postedOver_prudent _ fun round member => honest round (List.mem_append_right _ member)) known
    · rw [(lookedUpOver_learn _ later).2]
      exact foldl_learn_keeps (lookedUpOver_learn _ later).1 known

def Round.echo (addrs : List String) : Round :=
  ⟨addrs, fun _ => none, fun batch => some (batch.map fun ip => { status := "success", query := ip })⟩

theorem Round.echo_honest (addrs : List String) : (Round.echo addrs).Honest := by
  intro batch entries answered e member
  obtain rfl := Option.some.inj answered
  obtain ⟨ip, inside, rfl⟩ := List.mem_map.mp member
  exact inside

theorem posted_once_seen_twice :
    let round := Round.echo ["/ip4/93.184.216.34/tcp/8000"]
    let start := fromEnv true ∅
    ((start.postedOver [round, round]).map Post.batch) = [["93.184.216.34"]] ∧
      (start.afterAll [round, round]).cache.get? "93.184.216.34" = some { status := "success" } := by
  intro round start
  have once := posted_once true ∅ [round, round] (by
    intro later member
    have same : later = round := by simpa using member
    exact same ▸ Round.echo_honest _)
  exact ⟨by decide +kernel, (once.2.2 [round] [round] rfl).1 _ _ (by decide +kernel)⟩

/-! ### The bill of a pass -/

theorem batches_eq (geo : GeoIp) (round : Round) :
    (geo.gathered round).1.batches (geo.gathered round).2 =
      if !geo.enabled ∨ geo.cache.entries.length ≥ cacheLimit then [] else (geo.fresh round).toChunks batchLimit := by
  obtain ⟨cache, enabled, -⟩ := gathered_frame geo round
  rw [batches, cache, enabled]
  rfl

theorem posts_complete {fetchBatch : List String → Option (List ApiEntry)} {chunks : List (List String)}
    (answered : ∀ post ∈ posts fetchBatch chunks, post.reply.isSome = true) :
    (posts fetchBatch chunks).map Post.batch = chunks := by
  induction chunks with
  | nil => rfl
  | cons chunk chunks ih =>
    unfold posts at answered ⊢
    cases reply : fetchBatch chunk with
    | none =>
      rw [reply] at answered
      cases answered _ (List.mem_singleton_self _)
    | some entries =>
      simp only [reply] at answered ⊢
      rw [List.map_cons, ih fun post member => answered post (List.mem_cons_of_mem _ member)]

theorem posted_full {geo : GeoIp} (full : cacheLimit ≤ geo.cache.entries.length) (round : Round) :
    geo.posted round = [] := by
  rw [posted, batches_eq, if_pos (Or.inr full)]
  rfl

def Public (text : String) : Prop := ∃ ip, IpAddr.parse text.toList = some ip ∧ ip.isPublic = true

def KnownPublic (geo : GeoIp) : Prop := ∀ name text, geo.dns.get? name = some text → Public text

theorem gathered_public {geo : GeoIp} (known : geo.KnownPublic) (round : Round) :
    ∀ text ∈ (geo.gathered round).2, Public text := by
  intro text gathered
  rcases List.mem_append.mp gathered with seen | resolved
  · obtain ⟨ip, read⟩ := Option.isSome_iff_exists.mp (publicIps_parse seen)
    obtain ⟨-, -, -, shown⟩ := (mem_publicIps round.addrs ip).mp ⟨text, seen, read⟩
    exact ⟨ip, read, shown⟩
  · obtain ⟨name, -, answered⟩ := (mem_resolved round.lookupHost geo _ _).mp resolved
    unfold answer at answered
    rcases Option.or_eq_some_iff.mp answered with cached | ⟨-, looked⟩
    · exact known name text cached
    · split at looked
      · obtain ⟨ip, found, rfl⟩ := Option.map_eq_some_iff.mp looked
        exact ⟨ip, IpAddr.parse_print ip, lookup_isPublic found⟩
      · cases looked

theorem knownPublic_after {geo : GeoIp} (known : geo.KnownPublic) (round : Round) :
    (geo.after round).KnownPublic := by
  intro name text found
  change ((geo.gathered round).1.warm round.fetchBatch (geo.gathered round).2).dns.get? name = some text at found
  rw [warm_eq, (fetchAll_dns _ _ _).1] at found
  rcases resolveRelays_known round.lookupHost geo (relayDnsNames round.addrs) found with before | now
  · exact known name text before
  · exact gathered_public known round text (List.mem_append_right _ now)

theorem knownPublic_afterAll {geo : GeoIp} (known : geo.KnownPublic) (rounds : List Round) :
    (geo.afterAll rounds).KnownPublic := by
  induction rounds generalizing geo with
  | nil => exact known
  | cons round rounds ih => exact ih (knownPublic_after known round)

theorem posted_budget (geo : GeoIp) (round : Round) :
    (∀ post ∈ geo.posted round, 0 < post.batch.length ∧ post.batch.length ≤ 100) ∧
      ((geo.posted round).map Post.batch).flatten.Pairwise (· < ·) ∧
      (∀ post ∈ geo.posted round, ∀ ip ∈ post.batch,
        ip ∈ (geo.gathered round).2 ∧ geo.cache.get? ip = none) ∧
      (geo.posted round).length ≤ ((geo.fresh round).length + 99) / 100 ∧
      (geo.enabled = true → geo.cache.entries.length < cacheLimit →
        (∀ post ∈ geo.posted round, post.reply.isSome = true) →
        (geo.posted round).length = ((geo.fresh round).length + 99) / 100 ∧
          ((geo.posted round).map Post.batch).flatten = geo.fresh round) := by
  have sub := flatten_batches_sublist geo round
  have planned : ∀ chunk ∈ (geo.gathered round).1.batches (geo.gathered round).2,
      chunk ∈ (geo.fresh round).toChunks batchLimit := by
    intro chunk member
    rw [batches_eq] at member
    split at member
    · cases member
    · exact member
  have count : (geo.posted round).length ≤ ((geo.fresh round).toChunks batchLimit).length := by
    have first := (posts_batches round.fetchBatch ((geo.gathered round).1.batches (geo.gathered round).2)).1.length_le
    rw [List.length_map] at first
    refine first.trans ?_
    rw [batches_eq]
    split
    · exact Nat.zero_le _
    · exact Nat.le_refl _
  rw [length_toChunks (by decide)] at count
  refine ⟨?_, (sortedDistinct_strict _).sublist sub.sublist, ?_, count, ?_⟩
  · intro post member
    have batch : post.batch ∈ (geo.posted round).map Post.batch := List.mem_map_of_mem member
    exact length_of_mem_toChunks (by decide) (planned _ ((posts_batches _ _).1.subset batch))
  · intro post member ip inside
    refine mem_fresh.mp (sub.subset (List.mem_flatten.mpr ⟨post.batch, List.mem_map_of_mem member, inside⟩))
  · intro on room answered
    have all : (geo.posted round).map Post.batch = (geo.fresh round).toChunks batchLimit := by
      rw [posted, posts_complete answered, batches_eq, if_neg]
      rw [on]
      rintro (off | full)
      · cases off
      · exact absurd room (Nat.not_lt.mpr full)
    refine ⟨?_, ?_⟩
    · have count := congrArg List.length all
      rw [List.length_map, length_toChunks (by decide)] at count
      exact count
    · rw [all, flatten_toChunks]

/-- What a pass posts, after any run of passes: batches of 1 to 100 public addresses, strictly ascending through
all of them, none of them located yet; as few posts as that takes, and all of them when none fails. -/
theorem pass_budget (enabled : Bool) (statics : HashMap String Location) (rounds : List Round) (round : Round) :
    let geo := (fromEnv enabled statics).afterAll rounds
    (∀ post ∈ geo.posted round, 0 < post.batch.length ∧ post.batch.length ≤ 100) ∧
      ((geo.posted round).map Post.batch).flatten.Pairwise (· < ·) ∧
      (∀ post ∈ geo.posted round, ∀ ip ∈ post.batch,
        Public ip ∧ ip ∈ (geo.gathered round).2 ∧ geo.cache.get? ip = none) ∧
      (geo.posted round).length ≤ ((geo.fresh round).length + 99) / 100 ∧
      (geo.enabled = true → geo.cache.entries.length < cacheLimit →
        (∀ post ∈ geo.posted round, post.reply.isSome = true) →
        (geo.posted round).length = ((geo.fresh round).length + 99) / 100 ∧
          ((geo.posted round).map Post.batch).flatten = geo.fresh round) := by
  intro geo
  have start : (fromEnv enabled statics).KnownPublic := by
    intro name text known
    cases known
  have known : geo.KnownPublic := knownPublic_afterAll start rounds
  obtain ⟨sizes, ascending, unknown, count, all⟩ := posted_budget geo round
  refine ⟨sizes, ascending, fun post member ip inside => ?_, count, all⟩
  have offered := unknown post member ip inside
  exact ⟨gathered_public known round ip offered.1, offered⟩

theorem after_grows {geo : GeoIp} {round : Round} (honest : round.Honest) :
    (geo.after round).cache.entries.length ≤ geo.cache.entries.length + (geo.fresh round).length := by
  have known : (geo.after round).cache.keys ⊆ geo.cache.keys ++ geo.fresh round := by
    intro ip member
    by_contra absent
    rw [List.mem_append, not_or] at absent
    rw [HashMap.mem_keys, after_learns, foldl_learn_other, ← HashMap.mem_keys] at member
    · exact absent.1 member
    · intro ask listed answered
      obtain ⟨post, posted, rfl⟩ := List.mem_map.mp listed
      obtain ⟨answer, stored, rfl⟩ := List.mem_map.mp answered
      obtain ⟨e, inside, rfl⟩ := List.mem_map.mp stored
      cases reply : post.reply with
      | none => rw [reply] at inside; cases inside
      | some entries =>
        rw [reply] at inside
        have asked := honest post.batch entries (((posts_batches _ _).2 post posted).trans reply) e inside
        exact absent.2 ((flatten_batches_sublist geo round).subset
          (List.mem_flatten.mpr ⟨post.batch, List.mem_map_of_mem posted, asked⟩))
  have size := ((geo.after round).cache.nodup.subperm known).length_le
  simpa [HashMap.keys] using size

/-- The cache never outgrows its ceiling by more than the new addresses of one pass. -/
theorem cache_bounded (enabled : Bool) (statics : HashMap String Location) (rounds : List Round) (most : Nat)
    (honest : ∀ round ∈ rounds, round.Honest)
    (few : Along after (fun geo round => (geo.fresh round).length ≤ most) (fromEnv enabled statics) rounds) :
    ((fromEnv enabled statics).afterAll rounds).cache.entries.length ≤ cacheLimit - 1 + most := by
  have bounded : (fromEnv enabled statics).cache.entries.length ≤ cacheLimit - 1 + most := Nat.zero_le _
  generalize fromEnv enabled statics = geo at few bounded ⊢
  induction rounds generalizing geo with
  | nil => exact bounded
  | cons round rounds ih =>
    refine ih (fun later member => honest later (List.mem_cons_of_mem _ member)) _ few.2 ?_
    by_cases full : cacheLimit ≤ geo.cache.entries.length
    · have still : (geo.after round).cache.get? = geo.cache.get? := by
        rw [after_learns, posted_full full]
        rfl
      have same : (geo.after round).cache.keys ⊆ geo.cache.keys := by
        intro ip member
        rw [HashMap.mem_keys] at member ⊢
        exact still ▸ member
      have size := ((geo.after round).cache.nodup.subperm same).length_le
      simp only [HashMap.keys, List.length_map] at size
      exact size.trans bounded
    · have grown := @after_grows geo round (honest round List.mem_cons_self)
      have brought := few.1
      omega

theorem cache_bounded_three_passes :
    let rounds := [Round.echo ["/ip4/93.184.216.34/tcp/8000", "/ip4/1.2.3.4/tcp/8000"],
      Round.echo ["/ip4/1.2.3.4/tcp/8000", "/ip4/5.6.7.8/tcp/8000", "/ip4/9.9.9.9/tcp/8000"],
      Round.echo ["/ip4/9.9.9.9/tcp/8000", "/ip4/8.8.8.8/tcp/8000", "/ip4/10.0.0.1/tcp/8000"]]
    ((fromEnv true ∅).afterAll rounds).cache.entries.length = 5 ∧
      ((fromEnv true ∅).afterAll rounds).cache.entries.length ≤ 50001 := by
  intro rounds
  have honest : ∀ round ∈ rounds, round.Honest := by
    intro round member
    simp only [rounds, List.mem_cons, List.not_mem_nil, or_false] at member
    rcases member with rfl | rfl | rfl
    all_goals exact Round.echo_honest _
  exact ⟨by decide +kernel,
    cache_bounded true ∅ rounds 2 honest ⟨by decide +kernel, by decide +kernel, by decide +kernel, trivial⟩⟩

end GeoIp

end KwaaiNetMap
