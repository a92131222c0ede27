import KwaaiNetMap.Cache.Readers
import KwaaiNetMap.Reachability.Requests
import KwaaiNetMap.Routes.Metrics

/-!
The handlers run beside the crawler, and each lock they take is a step of its own. What one connection reads
comes from publishes in order, the node list at most one behind the documents (`clients_in_order`), and a
reachability request makes the observer dial nothing but what was published of the peer (`dials_published`).
-/

namespace KwaaiNetMap
open Systems

inductive Lock where
  | snapshot
  | nodes
  deriving DecidableEq

/-- The handlers; `live` is one push of the socket. -/
inductive Route where
  | state
  | isReachable (peerId : String)
  | stats
  | nodes
  | metrics
  | live

def Route.locks : Route → List Lock
  | .state => [.snapshot]
  | .isReachable _ => [.snapshot]
  | .stats => [.snapshot, .nodes]
  | .nodes => [.nodes]
  | .metrics => [.snapshot, .nodes, .snapshot]
  | .live => [.snapshot, .nodes]

inductive LockRead where
  | snapshot (snapshot : Snapshot)
  | nodes (nodes : List NodeEntry)

def LockRead.lock : LockRead → Lock
  | .snapshot _ => .snapshot
  | .nodes _ => .nodes

inductive Body where
  | state (snapshot : Snapshot)
  | nodes (nodes : List NodeEntry)
  | stats (stats : NetworkStats)
  | metrics (text : String)
  /-- What `check` is called with. -/
  | check (peerId : String) (addrs : List String)

def knownAddrs (snapshot : Snapshot) (peerId : String) : List String :=
  ((snapshot.peers.find? fun p => p.peerId = peerId).map fun p => p.peerIpInfo.multiaddrs).getD []

def Route.body (clerk : Clerk) (totalBlocks : Option Nat) : Route → List LockRead → Option Body
  | .state, [.snapshot snapshot] => some (.state snapshot)
  | .isReachable peerId, [.snapshot snapshot] => some (.check peerId (knownAddrs snapshot peerId))
  | .stats, [.snapshot snapshot, .nodes list] => some (.stats (NodeCache.stats ⟨snapshot, list⟩ totalBlocks))
  | .nodes, [.nodes list] => some (.nodes list)
  | .metrics, [.snapshot counted, .nodes list, .snapshot snapshot] =>
    some (.metrics (KwaaiNetMap.metrics clerk (NodeCache.stats ⟨counted, list⟩ totalBlocks) snapshot))
  | .live, [.snapshot snapshot, .nodes list] => some (.stats (NodeCache.stats ⟨snapshot, list⟩ totalBlocks))
  | _, _ => none

structure Reply where
  route : Route
  readings : List LockRead
  body : Body

structure Client where
  asked : Option Route := none
  taken : List LockRead := []
  replies : List Reply := []

def Client.readings (client : Client) : List LockRead := client.replies.flatMap Reply.readings ++ client.taken

structure Server where
  cache : NodeCache
  publisher : Publisher
  clients : Nat → Client
  desk : Desk
  checks : Nat

def Server.new (now : DateTime) (start : Nat) : Server :=
  { cache := NodeCache.new now, publisher := .idle, clients := fun _ => {}, desk := Desk.new start, checks := 0 }

def NodeCache.take (cache : NodeCache) : Lock → LockRead
  | .snapshot => .snapshot cache.snapshot
  | .nodes => .nodes cache.nodes

def Access.publishes : Access → Bool
  | .readServed _ | .writeSnapshot | .writeNodes => true
  | .readSnapshot _ | .readNodes _ => false

inductive ServerEvent where
  | publishes (access : Access)
  | asks (c : Nat) (route : Route)
  | takes (c : Nat)
  | passes (ticks : Nat)
  | checks (r : Nat) (action : Action)

def Server.locks (s : Server) : Locks := { cache := s.cache, publisher := s.publisher, readers := fun _ => .waiting }

def Server.answer (s : Server) : Body → Server
  | .check peerId addrs => { s with desk := s.desk.put s.checks { peerId, addrs } s.desk.reach, checks := s.checks + 1 }
  | _ => s

def Server.update (s : Server) (c : Nat) (client : Client) : Server :=
  { s with clients := Function.update s.clients c client }

section
variable (clerk : Clerk) (totalBlocks : Option Nat) (parsePeerId : String → Option PeerId) (ttl : Nat)

def serve (s : Server) : ServerEvent → Option Server
  | .publishes event =>
    if event.publishes then
      (access s.locks event).map fun locks => { s with cache := locks.cache, publisher := locks.publisher }
    else none
  | .asks c route =>
    let client := s.clients c
    if client.asked.isNone then some (s.update c { client with asked := some route }) else none
  | .takes c => do
    let client := s.clients c
    let route ← client.asked
    let lock ← route.locks[client.taken.length]?
    let taken := client.taken ++ [s.cache.take lock]
    match route.body clerk totalBlocks taken with
    | none => return s.update c { client with taken }
    | some body =>
      return (s.update c { replies := client.replies ++ [{ route, readings := taken, body }] }).answer body
  | .passes ticks => (deskStep parsePeerId ttl s.desk (.passes ticks)).map fun desk => { s with desk }
  | .checks r action => (deskStep parsePeerId ttl s.desk (.acts r action)).map fun desk => { s with desk }

end

inductive Handled (clerk : Clerk) (totalBlocks : Option Nat) (parsePeerId : String → Option PeerId) (ttl : Nat)
    (s : Server) : ServerEvent → Server → Prop where
  | published {event : Access} {locks : Locks} (mine : event.publishes = true)
      (accessed : access s.locks event = some locks) :
      Handled clerk totalBlocks parsePeerId ttl s (.publishes event)
        { s with cache := locks.cache, publisher := locks.publisher }
  | asked {c : Nat} (route : Route) :
      Handled clerk totalBlocks parsePeerId ttl s (.asks c route)
        (s.update c { s.clients c with asked := some route })
  | took {c : Nat} (lock : Lock) :
      Handled clerk totalBlocks parsePeerId ttl s (.takes c)
        (s.update c { s.clients c with taken := (s.clients c).taken ++ [s.cache.take lock] })
  | replied {c : Nat} {route : Route} {lock : Lock} {body : Body}
      (complete : route.body clerk totalBlocks ((s.clients c).taken ++ [s.cache.take lock]) = some body) :
      Handled clerk totalBlocks parsePeerId ttl s (.takes c)
        ((s.update c { replies := (s.clients c).replies ++
          [{ route, readings := (s.clients c).taken ++ [s.cache.take lock], body }] }).answer body)
  | passed (ticks : Nat) :
      Handled clerk totalBlocks parsePeerId ttl s (.passes ticks)
        { s with desk := { s.desk with now := s.desk.now + ticks } }
  | checked {r : Nat} {action : Action} {q : Request} {stage : Stage} {reach : ReachabilityCache}
      (known : s.desk.requests r = some q)
      (acted : Acted parsePeerId ttl s.desk.now s.desk.reach q action stage reach) :
      Handled clerk totalBlocks parsePeerId ttl s (.checks r action)
        { s with desk := s.desk.put r { q with stage } reach }

section
variable {clerk : Clerk} {totalBlocks : Option Nat} {parsePeerId : String → Option PeerId} {ttl : Nat} {s t : Server}

theorem serve_handled {e : ServerEvent} (stepped : serve clerk totalBlocks parsePeerId ttl s e = some t) :
    Handled clerk totalBlocks parsePeerId ttl s e t := by
  cases e with
  | publishes event =>
    obtain ⟨mine, mapped⟩ := Option.ite_none_right_eq_some.mp stepped
    obtain ⟨locks, accessed, rfl⟩ := Option.map_eq_some_iff.mp mapped
    exact .published mine accessed
  | asks c route =>
    obtain ⟨-, same⟩ := Option.ite_none_right_eq_some.mp stepped
    obtain rfl := Option.some.inj same
    exact .asked route
  | takes c =>
    obtain ⟨route, -, rest⟩ := Option.bind_eq_some_iff.mp stepped
    obtain ⟨lock, -, rest⟩ := Option.bind_eq_some_iff.mp rest
    dsimp only at rest
    split at rest
    · obtain rfl := Option.some.inj rest
      exact .took lock
    · rename_i body complete
      obtain rfl := Option.some.inj rest
      exact .replied complete
  | passes ticks =>
    obtain rfl := Option.some.inj stepped
    exact .passed ticks
  | checks r action =>
    obtain ⟨desk, moved, rfl⟩ := Option.map_eq_some_iff.mp stepped
    rcases deskStep_cases moved with ⟨_, other, -⟩ | ⟨_, _, _, other, -⟩ | acts
    · cases other
    · cases other
    · obtain ⟨_, _, q, stage, reach, same, known, acted, rfl⟩ := acts
      cases same
      exact .checked known (acted_of_act acted)

/-! ### The publisher's part of a run -/

def ServerEvent.access? : ServerEvent → Option Access
  | .publishes event => some event
  | _ => none

def publishing (events : List ServerEvent) : List Access := events.filterMap ServerEvent.access?

theorem access_locks {e : Access} {locks : Locks} (accessed : access s.locks e = some locks)
    (mine : e.publishes = true) : locks.readers = s.locks.readers := by
  cases accessed_of_access accessed with
  | readServed crawl idle => rfl
  | writeSnapshot served merged => rfl
  | writeNodes served installing => rfl
  | readSnapshot r waiting => cases mine
  | readNodes r snapshot holding => cases mine

theorem locks_answer (body : Body) : (s.answer body).locks = s.locks := by
  cases body <;> rfl

theorem serve_locks {e : ServerEvent} (stepped : serve clerk totalBlocks parsePeerId ttl s e = some t) :
    Systems.run access s.locks (publishing [e]) = some t.locks := by
  cases serve_handled stepped with
  | @published event locks mine accessed =>
    refine (run_cons access).mpr ⟨locks, accessed, ?_⟩
    obtain ⟨cache, publisher, readers⟩ := locks
    obtain rfl := access_locks accessed mine
    rfl
  | asked route => rfl
  | took lock => rfl
  | replied complete => exact congrArg some (locks_answer (s := s.update _ _) _).symm
  | passed ticks => rfl
  | checked known acted => rfl

theorem run_locks {events : List ServerEvent}
    (ran : Systems.run (serve clerk totalBlocks parsePeerId ttl) s events = some t) :
    Systems.run access s.locks (publishing events) = some t.locks := by
  induction events generalizing s with
  | nil => exact congrArg (some ∘ Server.locks) (Option.some.inj ran)
  | cons e events ih =>
    obtain ⟨m, stepped, rest⟩ := (run_cons _).mp ran
    have split : publishing (e :: events) = publishing [e] ++ publishing events := List.filterMap_append (l := [e])
    rw [split]
    exact (run_append access).mpr ⟨m.locks, serve_locks stepped, ih rest⟩

/-! ### What a connection reads -/

def look (now : DateTime) (events : List Access) : Lock × Nat → LockRead
  | (.snapshot, n) => .snapshot (installed now events n)
  | (.nodes, n) => .nodes (nodeEntries (installed now events n))

def writes (events : List Access) : Lock → Nat
  | .snapshot => snapshotWrites events
  | .nodes => nodesWrites events

/-- Later readings are of later publishes, a node list at most one behind. -/
def Ordered (a b : Lock × Nat) : Prop := a.2 ≤ b.2 + if a.1 = .snapshot ∧ b.1 = .nodes then 1 else 0

def InOrder (now : DateTime) (events : List Access) (readings : List LockRead) : Prop :=
  ∃ stamps : List (Lock × Nat), readings = stamps.map (look now events) ∧ stamps.Pairwise Ordered ∧
    ∀ stamp ∈ stamps, stamp.2 ≤ writes events stamp.1

section
variable {now : DateTime} {events : List Access} {locks : Locks} {readings : List LockRead}

theorem Tracks.take (tracks : Tracks now events locks) (lock : Lock) :
    locks.cache.take lock = look now events (lock, writes events lock) := by
  cases lock with
  | snapshot => exact congrArg LockRead.snapshot tracks.snapshot
  | nodes => exact congrArg LockRead.nodes tracks.nodes

theorem Tracks.lag (tracks : Tracks now events locks) :
    nodesWrites events ≤ snapshotWrites events ∧ snapshotWrites events ≤ nodesWrites events + 1 := by
  have at_ := tracks.publisher
  cases phase : locks.publisher with
  | idle => rw [phase] at at_; obtain ⟨made, written⟩ := at_; omega
  | merged served => rw [phase] at at_; obtain ⟨made, written, -⟩ := at_; omega
  | installing served => rw [phase] at at_; obtain ⟨made, written, -⟩ := at_; omega

theorem Tracks.writes_le (tracks : Tracks now events locks) (lock : Lock) :
    writes events lock ≤ (crawlsOf events).length := by
  obtain ⟨shown, listed⟩ := tracks.publisher.bounds
  cases lock with
  | snapshot => exact shown
  | nodes => exact listed

theorem Tracks.ordered (tracks : Tracks now events locks) (lock : Lock) {stamp : Lock × Nat}
    (made : stamp.2 ≤ writes events stamp.1) : Ordered stamp (lock, writes events lock) := by
  obtain ⟨before, n⟩ := stamp
  obtain ⟨behind, close⟩ := tracks.lag
  unfold Ordered
  cases before <;> cases lock <;> simp_all [writes] <;> omega

theorem InOrder.take (inOrder : InOrder now events readings) (tracks : Tracks now events locks) (lock : Lock) :
    InOrder now events (readings ++ [locks.cache.take lock]) := by
  obtain ⟨stamps, rfl, ordered, made⟩ := inOrder
  refine ⟨stamps ++ [(lock, writes events lock)], ?_, ?_, ?_⟩
  · rw [List.map_append, tracks.take]
    rfl
  · refine List.pairwise_append.mpr ⟨ordered, List.pairwise_singleton _ _, ?_⟩
    intro stamp member last here
    obtain rfl := List.mem_singleton.mp here
    exact tracks.ordered lock (made stamp member)
  · intro stamp member
    rcases List.mem_append.mp member with before | last
    · exact made stamp before
    · obtain rfl := List.mem_singleton.mp last
      exact le_rfl

theorem writes_append (events more : List Access) (lock : Lock) :
    writes events lock ≤ writes (events ++ more) lock := by
  cases lock <;> exact (List.sublist_append_left events more).countP_le

theorem InOrder.later (inOrder : InOrder now events readings) (tracks : Tracks now events locks) (more : List Access) :
    InOrder now (events ++ more) readings := by
  obtain ⟨stamps, rfl, ordered, made⟩ := inOrder
  refine ⟨stamps, ?_, ordered, ?_⟩
  · refine List.map_congr_left fun stamp member => ?_
    have same := installed_append now events more ((made stamp member).trans (tracks.writes_le stamp.1))
    obtain ⟨lock, n⟩ := stamp
    cases lock with
    | snapshot => exact congrArg LockRead.snapshot same.symm
    | nodes => exact congrArg (fun s => LockRead.nodes (nodeEntries s)) same.symm
  · intro stamp member
    exact (made stamp member).trans (writes_append events more stamp.1)

end

theorem clients_update_self (client : Client) (c : Nat) : (s.update c client).clients c = client := by
  simp only [Server.update, Function.update_self]

theorem clients_update_other {c c' : Nat} (client : Client) (other : c ≠ c') :
    (s.update c' client).clients c = s.clients c := by
  simp only [Server.update, Function.update_of_ne other]

theorem clients_answer (body : Body) : (s.answer body).clients = s.clients := by
  cases body <;> rfl

theorem client_step {e : ServerEvent} (stepped : serve clerk totalBlocks parsePeerId ttl s e = some t) (c : Nat) :
    ((t.clients c).readings = (s.clients c).readings ∨
        ∃ lock, (t.clients c).readings = (s.clients c).readings ++ [s.cache.take lock]) ∧
      ∀ reply ∈ (t.clients c).replies,
        reply ∈ (s.clients c).replies ∨ reply.route.body clerk totalBlocks reply.readings = some reply.body := by
  cases serve_handled stepped with
  | published mine accessed => exact ⟨Or.inl rfl, fun reply member => Or.inl member⟩
  | @asked c' route =>
    by_cases same : c = c'
    · subst same
      rw [clients_update_self]
      exact ⟨Or.inl rfl, fun reply member => Or.inl member⟩
    · rw [clients_update_other _ same]
      exact ⟨Or.inl rfl, fun reply member => Or.inl member⟩
  | @took c' lock =>
    by_cases same : c = c'
    · subst same
      rw [clients_update_self]
      refine ⟨Or.inr ⟨lock, ?_⟩, fun reply member => Or.inl member⟩
      exact (List.append_assoc _ _ _).symm
    · rw [clients_update_other _ same]
      exact ⟨Or.inl rfl, fun reply member => Or.inl member⟩
  | @replied c' route lock body complete =>
    rw [clients_answer]
    by_cases same : c = c'
    · subst same
      rw [clients_update_self]
      refine ⟨Or.inr ⟨lock, ?_⟩, ?_⟩
      · simp [Client.readings]
      · intro reply member
        rcases List.mem_append.mp member with before | last
        · exact Or.inl before
        · obtain rfl := List.mem_singleton.mp last
          exact Or.inr complete
    · rw [clients_update_other _ same]
      exact ⟨Or.inl rfl, fun reply member => Or.inl member⟩
  | passed ticks => exact ⟨Or.inl rfl, fun reply member => Or.inl member⟩
  | checked known acted => exact ⟨Or.inl rfl, fun reply member => Or.inl member⟩

end

/-- However the handlers run beside the crawler, what one connection reads comes from publishes in order, over all
its requests: no document before an older one, no document older than a node list before it, and no node list more
than one publish behind a document before it. Every reply is the handler's, of the readings it took. -/
theorem clients_in_order (clerk : Clerk) (totalBlocks : Option Nat) (parsePeerId : String → Option PeerId) (ttl : Nat)
    (now : DateTime) (start : Nat) {events : List ServerEvent} {s : Server}
    (ran : Systems.run (serve clerk totalBlocks parsePeerId ttl) (Server.new now start) events = some s) (c : Nat) :
    InOrder now (publishing events) (s.clients c).readings ∧
      ∀ reply ∈ (s.clients c).replies, reply.route.body clerk totalBlocks reply.readings = some reply.body := by
  induction events using List.reverseRecOn generalizing s with
  | nil =>
    obtain rfl := Option.some.inj ran
    exact ⟨⟨[], rfl, List.Pairwise.nil, fun _ member => absurd member (List.not_mem_nil)⟩,
      fun reply member => absurd member (List.not_mem_nil)⟩
  | append_singleton events e ih =>
    obtain ⟨m, first, last⟩ := (run_append _).mp ran
    obtain ⟨n, stepped, rest⟩ := (run_cons _).mp last
    obtain rfl := Option.some.inj rest
    obtain ⟨inOrder, replies⟩ := ih first
    have tracks : Tracks now (publishing events) m.locks := tracks_run (run_locks first)
    obtain ⟨readings, replies'⟩ := client_step stepped c
    rw [publishing, List.filterMap_append]
    refine ⟨?_, fun reply member => (replies' reply member).elim (replies reply) id⟩
    rcases readings with same | ⟨lock, taken⟩
    · rw [same]
      exact inOrder.later tracks _
    · rw [taken]
      exact (inOrder.take tracks lock).later tracks _

theorem clients_in_order_publish_between :
    let clerk : Clerk := { display := fun _ => "0", oneLine := fun _ => by decide, timestamp := id }
    let crawl : Snapshot := { lastUpdated := 0, numPeers := 1 }
    let events : List ServerEvent := [
      .asks 0 .nodes, .takes 0, .publishes (.readServed crawl), .publishes .writeSnapshot, .publishes .writeNodes,
      .asks 0 .state, .takes 0]
    ∃ s, Systems.run (serve clerk none some 300) (Server.new 0 0) events = some s ∧
      InOrder 0 (publishing events) (s.clients 0).readings ∧ (s.clients 0).replies.length = 2 := by
  intro clerk crawl events
  have ran : Systems.run (serve clerk none some 300) (Server.new 0 0) events = some _ := rfl
  exact ⟨_, ran, (clients_in_order clerk none some 300 0 0 ran 0).1, rfl⟩

/-! ### What a reachability request dials -/

def Listed (events : List Access) (peerId addr : String) : Prop :=
  ∃ crawl ∈ crawlsOf events, ∃ row ∈ crawl.peers, row.peerId = peerId ∧ addr ∈ row.peerIpInfo.multiaddrs

theorem installed_peers {now : DateTime} {events : List Access} {n : Nat} {row : PeerRow}
    (member : row ∈ (installed now events n).peers) : ∃ crawl ∈ crawlsOf events, row ∈ crawl.peers := by
  have folded (crawls : List Snapshot) (start : Snapshot) (here : row ∈ (crawls.foldl mergeCrawl start).peers) :
      row ∈ start.peers ∨ ∃ crawl ∈ crawls, row ∈ crawl.peers := by
    induction crawls generalizing start with
    | nil => exact Or.inl here
    | cons crawl crawls ih =>
      rcases ih _ here with merged | ⟨later, listed, row_of⟩
      · unfold mergeCrawl at merged
        split at merged
        · exact Or.inr ⟨crawl, List.mem_cons_self, merged⟩
        · exact Or.inl merged
      · exact Or.inr ⟨later, List.mem_cons_of_mem _ listed, row_of⟩
  rcases folded _ _ member with nobody | ⟨crawl, listed, row_of⟩
  · cases nobody
  · exact ⟨crawl, List.mem_of_mem_take listed, row_of⟩

theorem listed_of_known {now : DateTime} {events : List Access} {n : Nat} {peerId addr : String}
    (member : addr ∈ knownAddrs (installed now events n) peerId) : Listed events peerId addr := by
  unfold knownAddrs at member
  cases found : (installed now events n).peers.find? fun p => decide (p.peerId = peerId) with
  | none =>
    rw [found] at member
    cases member
  | some row =>
    rw [found] at member
    obtain ⟨crawl, listed, row_of⟩ := installed_peers (List.mem_of_find?_eq_some found)
    have same : row.peerId = peerId := by simpa using List.find?_some found
    exact ⟨crawl, listed, row, row_of, same, member⟩

/-- What the probe has still to dial is known of the peer, or its bare id. -/
def Probe.Within (parsePeerId : String → Option PeerId) (peerId : String) (addrs : List String) : Probe → Prop
  | .dialing target addr rest => parsePeerId peerId = some target ∧ addr :: rest ⊆ addrs ++ ["/p2p/" ++ peerId]
  | .hangingUp _ => True
  | .done _ => True

section
variable {parsePeerId : String → Option PeerId} {peerId : String} {addrs : List String}

theorem within_tryNext {target : PeerId} {last : String} {rest : List String}
    (parsed : parsePeerId peerId = some target) (within : rest ⊆ addrs ++ ["/p2p/" ++ peerId]) :
    (Probe.tryNext target last rest).Within parsePeerId peerId addrs := by
  cases rest with
  | nil => trivial
  | cons addr rest => exact ⟨parsed, within⟩

theorem within_dial : (Probe.dial parsePeerId peerId addrs).Within parsePeerId peerId addrs := by
  unfold Probe.dial
  split
  · trivial
  · rename_i target parsed
    exact within_tryNext parsed fun _ member => member

theorem within_next {probe next : Probe} {move : ProbeMove} (within : probe.Within parsePeerId peerId addrs)
    (moved : probe.next move = some next) : next.Within parsePeerId peerId addrs := by
  unfold Probe.next at moved
  split at moved
  · rename_i target addr rest result
    obtain rfl := Option.some.inj moved
    obtain ⟨parsed, inside⟩ := within
    have later : rest ⊆ addrs ++ ["/p2p/" ++ peerId] := fun a member => inside (List.mem_cons_of_mem _ member)
    cases result with
    | reached peer => trivial
    | failed message => exact within_tryNext parsed later
    | timedOut => exact within_tryNext parsed later
  · obtain rfl := Option.some.inj moved
    trivial
  · cases moved

theorem within_session {leads : String → PeerId → Bool} {swarm : Swarm} {reach : ReachabilityCache} {clock : Nat}
    {events : List Event} {final : Session}
    (ran : Systems.run (step leads) { swarm, probe := reach.check parsePeerId clock peerId addrs } events =
      some final) :
    final.probe.Within parsePeerId peerId addrs := by
  refine run_invariant (I := fun s => s.probe.Within parsePeerId peerId addrs) ?_ ran ?_
  · intro s e t within stepped
    rcases step_probe stepped with same | ⟨move, moved⟩
    · rwa [same]
    · exact within_next within moved
  · change (reach.check parsePeerId clock peerId addrs).Within parsePeerId peerId addrs
    rw [check_eq]
    split
    · trivial
    · exact within_dial

end

structure Request.Sourced (parsePeerId : String → Option PeerId) (now : DateTime) (events : List Access) (q : Request) :
    Prop where
  known : ∃ n ≤ (crawlsOf events).length, q.addrs = knownAddrs (installed now events n) q.peerId
  within : ∀ begun probe, q.stage = .probing begun probe → probe.Within parsePeerId q.peerId q.addrs

section
variable {clerk : Clerk} {totalBlocks : Option Nat} {parsePeerId : String → Option PeerId} {ttl : Nat} {s t : Server}
  {now : DateTime} {events : List Access}

theorem body_check {route : Route} {readings : List LockRead} {peerId : String} {addrs : List String}
    (complete : route.body clerk totalBlocks readings = some (.check peerId addrs)) :
    ∃ snapshot, readings = [.snapshot snapshot] ∧ addrs = knownAddrs snapshot peerId := by
  unfold Route.body at complete
  split at complete <;> cases complete
  exact ⟨_, rfl, rfl⟩

theorem sourced_acted {q : Request} {action : Action} {stage : Stage} {clock : Nat} {reach reach' : ReachabilityCache}
    (sourced : q.Sourced parsePeerId now events) (acted : Acted parsePeerId ttl clock reach q action stage reach') :
    ({ q with stage } : Request).Sourced parsePeerId now events := by
  refine ⟨sourced.known, fun begun probe probing => ?_⟩
  cases acted with
  | hit arrived fresh => cases probing
  | miss arrived stale => cases probing
  | inserted done => cases probing
  | dialed missed =>
    cases probing
    exact within_dial
  | probed probing' moved =>
    cases probing
    exact within_next (sourced.within _ _ probing') moved

theorem sourced_later {q : Request} (sourced : q.Sourced parsePeerId now events) (more : List Access) :
    q.Sourced parsePeerId now (events ++ more) := by
  obtain ⟨n, made, same⟩ := sourced.known
  refine ⟨⟨n, made.trans ?_, ?_⟩, sourced.within⟩
  · exact ((List.sublist_append_left events more).filterMap _).length_le
  · rw [installed_append now events more made, same]

theorem sourced_step {e : ServerEvent} (stepped : serve clerk totalBlocks parsePeerId ttl s e = some t)
    (tracks : Tracks now events s.locks)
    (sourced : ∀ r q, s.desk.requests r = some q → q.Sourced parsePeerId now events) :
    ∀ r q, t.desk.requests r = some q → q.Sourced parsePeerId now events := by
  cases serve_handled stepped with
  | published mine accessed => exact sourced
  | asked route => exact sourced
  | took lock => exact sourced
  | passed ticks => exact sourced
  | @replied c route lock body complete =>
    cases body with
    | check peerId addrs =>
      intro r q held
      by_cases same : r = s.checks
      · have found : some ({ peerId, addrs } : Request) = some q := (if_pos same).symm.trans held
        obtain rfl := Option.some.inj found
        obtain ⟨snapshot, alone, known⟩ := body_check complete
        refine ⟨⟨snapshotWrites events, tracks.writes_le .snapshot, ?_⟩, fun begun probe probing => nomatch probing⟩
        have read : s.cache.take lock = .snapshot snapshot := by
          have taken := congrArg List.getLast? alone
          rw [List.getLast?_concat] at taken
          exact Option.some.inj taken
        cases lock with
        | snapshot =>
          rw [known, ← LockRead.snapshot.inj read]
          exact congrArg (fun served => knownAddrs served peerId) tracks.snapshot
        | nodes => cases read
      · have found : s.desk.requests r = some q := (if_neg same).symm.trans held
        exact sourced r q found
    | _ => exact sourced
  | @checked r action q stage reach known acted =>
    intro r' q' held
    by_cases same : r' = r
    · have found : some { q with stage } = some q' := (if_pos same).symm.trans held
      obtain rfl := Option.some.inj found
      exact sourced_acted (sourced r q known) acted
    · have found : s.desk.requests r' = some q' := (if_neg same).symm.trans held
      exact sourced r' q' found

end

/-- However requests and crawls interleave, the addresses a reachability request goes by are those a published
document lists for its peer, and each dial of its probe is of one of these, which some crawl saw the peer on, or of
the bare id, and only for a text that is a peer id; so it is wherever its check runs on the shared swarm, whatever
the others do there. -/
theorem dials_published (clerk : Clerk) (totalBlocks : Option Nat) (parsePeerId : String → Option PeerId) (ttl : Nat)
    (now : DateTime) (start : Nat) {events : List ServerEvent} {s : Server}
    (ran : Systems.run (serve clerk totalBlocks parsePeerId ttl) (Server.new now start) events = some s) {r : Nat}
    {q : Request} (asked : s.desk.requests r = some q) :
    (∃ n ≤ (crawlsOf (publishing events)).length, q.addrs = knownAddrs (installed now (publishing events) n) q.peerId) ∧
      (∀ begun target addr rest, q.stage = .probing begun (.dialing target addr rest) →
        parsePeerId q.peerId = some target ∧
          (addr = "/p2p/" ++ q.peerId ∨ Listed (publishing events) q.peerId addr)) ∧
      ∀ leads swarm (reach : ReachabilityCache) clock moves final,
        Systems.run (step leads) { swarm, probe := reach.check parsePeerId clock q.peerId q.addrs } moves = some final →
        ∀ target addr rest, final.probe = .dialing target addr rest →
          parsePeerId q.peerId = some target ∧
            (addr = "/p2p/" ++ q.peerId ∨ Listed (publishing events) q.peerId addr) := by
  have all : ∀ r q, s.desk.requests r = some q → q.Sourced parsePeerId now (publishing events) := by
    clear asked
    induction events using List.reverseRecOn generalizing s with
    | nil =>
      obtain rfl := Option.some.inj ran
      intro r q held
      cases held
    | append_singleton events e ih =>
      obtain ⟨m, first, last⟩ := (run_append _).mp ran
      obtain ⟨n, stepped, rest⟩ := (run_cons _).mp last
      obtain rfl := Option.some.inj rest
      rw [publishing, List.filterMap_append]
      intro r q held
      exact sourced_later (sourced_step stepped (tracks_run (run_locks first)) (ih first) r q held) _
  obtain ⟨⟨n, made, same⟩, within⟩ := all r q asked
  have published {probe : Probe} (inside : probe.Within parsePeerId q.peerId q.addrs) {target : PeerId} {addr : String}
      {rest : List String} (dialing : probe = .dialing target addr rest) :
      parsePeerId q.peerId = some target ∧ (addr = "/p2p/" ++ q.peerId ∨ Listed (publishing events) q.peerId addr) := by
    subst dialing
    obtain ⟨parsed, inside⟩ := inside
    refine ⟨parsed, ?_⟩
    rcases List.mem_append.mp (inside List.mem_cons_self) with known | bare
    · exact Or.inr (listed_of_known (same ▸ known))
    · exact Or.inl (List.mem_singleton.mp bare)
  refine ⟨⟨n, made, same⟩, ?_, ?_⟩
  · intro begun target addr rest probing
    exact published (within begun _ probing) rfl
  · intro leads swarm reach clock moves final moved target addr rest dialing
    exact published (within_session moved) dialing

theorem dials_published_seen_peer :
    let clerk : Clerk := { display := fun _ => "0", oneLine := fun _ => by decide, timestamp := id }
    let row : PeerRow :=
      { peerId := "QmA", shortPeerId := "QmA", publicName := none, version := none, state := "online"
        shardLoading := false, model := none, span := none, throughput := 0.0, usingRelay := none, vpk := none
        trustAttestations := 0, peerIpInfo := { multiaddrs := ["/ip4/1.2.3.4/tcp/4001"] }, kad := true
        announced := true }
    let crawl : Snapshot := { lastUpdated := 0, numPeers := 1, peers := [row] }
    let events : List ServerEvent := [
      .publishes (.readServed crawl), .publishes .writeSnapshot, .publishes .writeNodes,
      .asks 0 (.isReachable "QmA"), .takes 0, .checks 0 .looksUp, .checks 0 .dials]
    ∃ s, Systems.run (serve clerk none some 300) (Server.new 0 0) events = some s ∧
      Listed (publishing events) "QmA" "/ip4/1.2.3.4/tcp/4001" := by
  intro clerk row crawl events
  have ran : Systems.run (serve clerk none some 300) (Server.new 0 0) events = some _ := rfl
  have dialed := (dials_published clerk none some 300 0 0 ran (r := 0) rfl).2.1 _ _ _ _ rfl
  exact ⟨_, ran, dialed.2.resolve_left (by decide)⟩

end KwaaiNetMap
