import KwaaiNetMap.Cache.Stats
import KwaaiNetMap.Systems.Runs
import Mathlib.Logic.Function.Basic

/-!
The snapshot and the node list are behind two locks. Each acquisition is one step: the publisher takes
three of them for a crawl, a reader of the statistics two. `readers_consistent_iff` says in which runs
every reader gets a node list that belongs to its snapshot.
-/

namespace KwaaiNetMap
open Systems

inductive Publisher where
  | idle
  | merged (served : Snapshot)
  | installing (served : Snapshot)

inductive Reader where
  | waiting
  | holding (snapshot : Snapshot)
  | done (snapshot : Snapshot) (nodes : List NodeEntry)

structure Locks where
  cache : NodeCache
  publisher : Publisher
  readers : Nat → Reader

inductive Access where
  | readServed (crawl : Snapshot)
  | writeSnapshot
  | writeNodes
  | readSnapshot (r : Nat)
  | readNodes (r : Nat)

def Locks.new (now : DateTime) : Locks :=
  { cache := NodeCache.new now, publisher := .idle, readers := fun _ => .waiting }

def access (s : Locks) : Access → Option Locks
  | .readServed crawl =>
    match s.publisher with
    | .idle => some { s with publisher := .merged (mergeCrawl s.cache.snapshot crawl) }
    | _ => none
  | .writeSnapshot =>
    match s.publisher with
    | .merged served =>
      some { s with cache := { s.cache with snapshot := served }, publisher := .installing served }
    | _ => none
  | .writeNodes =>
    match s.publisher with
    | .installing served =>
      some { s with cache := { s.cache with nodes := nodeEntries served }, publisher := .idle }
    | _ => none
  | .readSnapshot r =>
    match s.readers r with
    | .waiting => some { s with readers := Function.update s.readers r (.holding s.cache.snapshot) }
    | _ => none
  | .readNodes r =>
    match s.readers r with
    | .holding snapshot => some { s with readers := Function.update s.readers r (.done snapshot s.cache.nodes) }
    | _ => none

inductive Accessed (s : Locks) : Access → Locks → Prop where
  | readServed (crawl : Snapshot) (idle : s.publisher = .idle) :
      Accessed s (.readServed crawl) { s with publisher := .merged (mergeCrawl s.cache.snapshot crawl) }
  | writeSnapshot (served : Snapshot) (merged : s.publisher = .merged served) :
      Accessed s .writeSnapshot
        { s with cache := { s.cache with snapshot := served }, publisher := .installing served }
  | writeNodes (served : Snapshot) (installing : s.publisher = .installing served) :
      Accessed s .writeNodes { s with cache := { s.cache with nodes := nodeEntries served }, publisher := .idle }
  | readSnapshot (r : Nat) (waiting : s.readers r = .waiting) :
      Accessed s (.readSnapshot r) { s with readers := Function.update s.readers r (.holding s.cache.snapshot) }
  | readNodes (r : Nat) (snapshot : Snapshot) (holding : s.readers r = .holding snapshot) :
      Accessed s (.readNodes r)
        { s with readers := Function.update s.readers r (.done snapshot s.cache.nodes) }

theorem accessed_of_access {s t : Locks} {e : Access} (stepped : access s e = some t) : Accessed s e t := by
  unfold access at stepped
  split at stepped <;> split at stepped
  · rename_i crawl _ idle
    obtain rfl := Option.some.inj stepped
    exact .readServed crawl idle
  · cases stepped
  · rename_i served merged
    obtain rfl := Option.some.inj stepped
    exact .writeSnapshot served merged
  · cases stepped
  · rename_i served installing
    obtain rfl := Option.some.inj stepped
    exact .writeNodes served installing
  · cases stepped
  · rename_i r _ waiting
    obtain rfl := Option.some.inj stepped
    exact .readSnapshot r waiting
  · cases stepped
  · rename_i r _ snapshot holding
    obtain rfl := Option.some.inj stepped
    exact .readNodes r snapshot holding
  · cases stepped

theorem run_publish (s : Locks) (idle : s.publisher = .idle) (crawl : Snapshot) :
    run access s [.readServed crawl, .writeSnapshot, .writeNodes] =
      some { s with cache := s.cache.publish crawl, publisher := .idle } := by
  simp [run, List.foldlM, access, idle, NodeCache.publish]

/-! ### What the publisher has installed -/

def Access.crawl? : Access → Option Snapshot
  | .readServed crawl => some crawl
  | _ => none

def Access.isSnapshotWrite : Access → Bool
  | .writeSnapshot => true
  | _ => false

def Access.isNodesWrite : Access → Bool
  | .writeNodes => true
  | _ => false

def crawlsOf (events : List Access) : List Snapshot := events.filterMap Access.crawl?

def snapshotWrites (events : List Access) : Nat := events.countP Access.isSnapshotWrite

def nodesWrites (events : List Access) : Nat := events.countP Access.isNodesWrite

@[simp] theorem crawlsOf_concat (events : List Access) (e : Access) :
    crawlsOf (events ++ [e]) = crawlsOf events ++ e.crawl?.toList := by
  cases made : e.crawl? <;> simp [crawlsOf, made]

@[simp] theorem snapshotWrites_concat (events : List Access) (e : Access) :
    snapshotWrites (events ++ [e]) = snapshotWrites events + if e.isSnapshotWrite then 1 else 0 := by
  simp [snapshotWrites, List.countP_singleton]

@[simp] theorem nodesWrites_concat (events : List Access) (e : Access) :
    nodesWrites (events ++ [e]) = nodesWrites events + if e.isNodesWrite then 1 else 0 := by
  simp [nodesWrites, List.countP_singleton]

/-- The snapshot that the `n`-th publish of a run installs, the empty one before the first. -/
def installed (now : DateTime) (events : List Access) (n : Nat) : Snapshot :=
  ((crawlsOf events).take n).foldl mergeCrawl (Snapshot.default now)

theorem installed_append (now : DateTime) (events later : List Access) {n : Nat}
    (made : n ≤ (crawlsOf events).length) : installed now (events ++ later) n = installed now events n := by
  unfold installed
  rw [crawlsOf, List.filterMap_append]
  exact congrArg (List.foldl mergeCrawl _) (List.take_append_of_le_length made)

/-- Where the publisher stands after some events, told by how often it has written. -/
def Publisher.At (now : DateTime) (events : List Access) : Publisher → Prop
  | .idle => (crawlsOf events).length = snapshotWrites events ∧ snapshotWrites events = nodesWrites events
  | .merged served =>
    (crawlsOf events).length = snapshotWrites events + 1 ∧ snapshotWrites events = nodesWrites events ∧
      served = installed now events (snapshotWrites events + 1)
  | .installing served =>
    (crawlsOf events).length = snapshotWrites events ∧ snapshotWrites events = nodesWrites events + 1 ∧
      served = installed now events (snapshotWrites events)

structure Tracks (now : DateTime) (events : List Access) (s : Locks) : Prop where
  snapshot : s.cache.snapshot = installed now events (snapshotWrites events)
  nodes : s.cache.nodes = nodeEntries (installed now events (nodesWrites events))
  publisher : s.publisher.At now events

theorem Publisher.At.bounds {now : DateTime} {events : List Access} {p : Publisher} (at_ : p.At now events) :
    snapshotWrites events ≤ (crawlsOf events).length ∧ nodesWrites events ≤ (crawlsOf events).length := by
  cases p with
  | idle => obtain ⟨made, written⟩ := at_; omega
  | merged served => obtain ⟨made, written, -⟩ := at_; omega
  | installing served => obtain ⟨made, written, -⟩ := at_; omega

section
variable {now : DateTime} {events : List Access} {s t : Locks}

theorem installed_crawl (crawl : Snapshot) (made : (crawlsOf events).length = snapshotWrites events) :
    installed now (events ++ [.readServed crawl]) (snapshotWrites events + 1) =
      mergeCrawl (installed now events (snapshotWrites events)) crawl := by
  unfold installed
  rw [crawlsOf_concat, ← made, List.take_of_length_le (by simp [Access.crawl?]), List.take_of_length_le le_rfl,
    List.foldl_append]
  rfl

theorem Tracks.unwritten {e : Access} (tracks : Tracks now events s) (snapshotKept : e.isSnapshotWrite = false)
    (nodesKept : e.isNodesWrite = false) :
    s.cache.snapshot = installed now (events ++ [e]) (snapshotWrites (events ++ [e])) ∧
      s.cache.nodes = nodeEntries (installed now (events ++ [e]) (nodesWrites (events ++ [e]))) := by
  obtain ⟨shown, listed⟩ := tracks.publisher.bounds
  rw [snapshotWrites_concat, nodesWrites_concat, snapshotKept, nodesKept]
  constructor
  · exact tracks.snapshot.trans (installed_append now events [e] shown).symm
  · exact tracks.nodes.trans (congrArg nodeEntries (installed_append now events [e] listed).symm)

theorem Publisher.At.untouched {e : Access} {p : Publisher} (at_ : p.At now events) (noCrawl : e.crawl? = none)
    (snapshotKept : e.isSnapshotWrite = false) (nodesKept : e.isNodesWrite = false) : p.At now (events ++ [e]) := by
  cases p with
  | idle => simpa [Publisher.At, noCrawl, snapshotKept, nodesKept] using at_
  | merged served =>
    obtain ⟨made, written, merged⟩ := at_
    have same := installed_append now events [e] made.ge
    simp [Publisher.At, noCrawl, snapshotKept, nodesKept, made, merged, same]
    exact written
  | installing served =>
    obtain ⟨made, written, merged⟩ := at_
    have same := installed_append now events [e] made.ge
    simp [Publisher.At, noCrawl, snapshotKept, nodesKept, made, merged, same]
    exact written

theorem Tracks.step {e : Access} (tracks : Tracks now events s) (stepped : access s e = some t) :
    Tracks now (events ++ [e]) t := by
  have at_ := tracks.publisher
  cases accessed_of_access stepped with
  | readServed crawl idle =>
    obtain ⟨snapshot, nodes⟩ := tracks.unwritten (e := .readServed crawl) rfl rfl
    rw [idle] at at_
    obtain ⟨made, written⟩ := at_
    refine ⟨snapshot, nodes, by simp [Access.crawl?, Access.isSnapshotWrite, made], ?_, ?_⟩
    · simpa [Access.isSnapshotWrite, Access.isNodesWrite] using written
    · rw [tracks.snapshot]
      simpa [Access.isSnapshotWrite] using (installed_crawl crawl made).symm
  | writeSnapshot served phase =>
    rw [phase] at at_
    obtain ⟨made, written, merged⟩ := at_
    have same := installed_append now events [.writeSnapshot] made.ge
    have listed := installed_append now events [.writeSnapshot] (n := nodesWrites events) (by omega)
    refine ⟨?_, ?_, ?_, ?_, ?_⟩
    · simpa [Access.isSnapshotWrite, same] using merged
    · simpa [Access.isNodesWrite, listed] using tracks.nodes
    · simpa [Access.crawl?, Access.isSnapshotWrite] using made
    · simpa [Access.isNodesWrite, Access.isSnapshotWrite] using written
    · simpa [Access.isSnapshotWrite, same] using merged
  | writeNodes served phase =>
    rw [phase] at at_
    obtain ⟨made, written, merged⟩ := at_
    have same := installed_append now events [.writeNodes] made.ge
    refine ⟨?_, ?_, ?_, ?_⟩
    · simpa [Access.isSnapshotWrite, same] using tracks.snapshot
    · simp [Access.isNodesWrite, ← written, same, merged]
    · simpa [Access.crawl?, Access.isSnapshotWrite] using made
    · simpa [Access.isNodesWrite, Access.isSnapshotWrite] using written
  | readSnapshot r waiting =>
    obtain ⟨snapshot, nodes⟩ := tracks.unwritten (e := .readSnapshot r) rfl rfl
    exact ⟨snapshot, nodes, at_.untouched rfl rfl rfl⟩
  | readNodes r snapshot holding =>
    obtain ⟨snapshot, nodes⟩ := tracks.unwritten (e := .readNodes r) rfl rfl
    exact ⟨snapshot, nodes, at_.untouched rfl rfl rfl⟩

theorem tracks_run (ran : run access (Locks.new now) events = some t) : Tracks now events t := by
  induction events using List.reverseRecOn generalizing t with
  | nil =>
    obtain rfl := Option.some.inj ran
    exact ⟨rfl, rfl, rfl, rfl⟩
  | append_singleton events e ih =>
    obtain ⟨m, first, last⟩ := (run_append access).mp ran
    obtain ⟨n, stepped, rest⟩ := (run_cons access).mp last
    obtain rfl := Option.some.inj rest
    exact (ih first).step stepped

/-! ### What a reader has seen -/

theorem access_reader {e : Access} (stepped : access s e = some t) (r : Nat) :
    t.readers r = s.readers r ∨
      (e = .readSnapshot r ∧ s.readers r = .waiting ∧ t.readers r = .holding s.cache.snapshot) ∨
      (e = .readNodes r ∧ ∃ S, s.readers r = .holding S ∧ t.readers r = .done S s.cache.nodes) := by
  cases accessed_of_access stepped with
  | readServed crawl idle => exact Or.inl rfl
  | writeSnapshot served merged => exact Or.inl rfl
  | writeNodes served installing => exact Or.inl rfl
  | readSnapshot q waiting =>
    by_cases same : r = q
    · subst same
      exact Or.inr (Or.inl ⟨rfl, waiting, Function.update_self _ _ _⟩)
    · exact Or.inl (Function.update_of_ne same _ _)
  | readNodes q S holding =>
    by_cases same : r = q
    · subst same
      exact Or.inr (Or.inr ⟨rfl, S, holding, Function.update_self _ _ _⟩)
    · exact Or.inl (Function.update_of_ne same _ _)

theorem done_kept {r : Nat} {S : Snapshot} {N : List NodeEntry} (ran : run access s events = some t)
    (seen : s.readers r = .done S N) : t.readers r = .done S N := by
  refine run_invariant (I := fun u : Locks => u.readers r = .done S N) ?_ ran seen
  intro u e v holds stepped
  rcases access_reader stepped r with same | ⟨-, waiting, -⟩ | ⟨-, S', holding, -⟩
  · exact same.trans holds
  · rw [holds] at waiting
    cases waiting
  · rw [holds] at holding
    cases holding

theorem holding_kept {r : Nat} {S : Snapshot} (ran : run access s events = some t)
    (seen : s.readers r = .holding S) : t.readers r = .holding S ∨ ∃ N, t.readers r = .done S N := by
  refine run_invariant (I := fun u : Locks => u.readers r = .holding S ∨ ∃ N, u.readers r = .done S N) ?_ ran
    (Or.inl seen)
  intro u e v holds stepped
  rcases access_reader stepped r with same | ⟨-, waiting, -⟩ | ⟨-, S', holding, read⟩
  · rw [same]
    exact holds
  · rcases holds with holds | ⟨N, holds⟩ <;> (rw [holds] at waiting; cases waiting)
  · rcases holds with holds | ⟨N, holds⟩
    · rw [holds] at holding
      obtain rfl := Reader.holding.inj holding
      exact Or.inr ⟨_, read⟩
    · rw [holds] at holding
      cases holding

/-- A reader ends with the snapshot installed before its first access and the nodes written before its
second. -/
theorem done_of_split {r : Nat} {before between after : List Access}
    (ran : run access (Locks.new now) (before ++ .readSnapshot r :: (between ++ .readNodes r :: after)) = some t) :
    t.readers r = .done (installed now before (snapshotWrites before))
      (nodeEntries (installed now (before ++ .readSnapshot r :: between)
        (nodesWrites (before ++ .readSnapshot r :: between)))) := by
  obtain ⟨m, first, rest⟩ := (run_append access).mp ran
  obtain ⟨m', reads, rest⟩ := (run_cons access).mp rest
  obtain ⟨n, middle, rest⟩ := (run_append access).mp rest
  obtain ⟨n', lists, rest⟩ := (run_cons access).mp rest
  have whole : run access (Locks.new now) (before ++ .readSnapshot r :: between) = some n :=
    (run_append access).mpr ⟨m, first, (run_cons access).mpr ⟨m', reads, middle⟩⟩
  have held : m'.readers r = .holding m.cache.snapshot := by
    cases accessed_of_access reads with
    | readSnapshot r waiting => exact Function.update_self _ _ _
  have listed : n'.readers r = .done m.cache.snapshot n.cache.nodes := by
    cases accessed_of_access lists with
    | readNodes r S holding =>
      rcases holding_kept middle held with kept | ⟨N, kept⟩
      · rw [kept] at holding
        obtain rfl := Reader.holding.inj holding
        exact Function.update_self _ _ _
      · rw [kept] at holding
        cases holding
  rw [← (tracks_run first).snapshot, ← (tracks_run whole).nodes]
  exact done_kept rest listed

theorem split_of_done {r : Nat} {S : Snapshot} {N : List NodeEntry}
    (ran : run access (Locks.new now) events = some t) (seen : t.readers r = .done S N) :
    ∃ before between after, events = before ++ .readSnapshot r :: (between ++ .readNodes r :: after) := by
  have second : ∀ u e v, (∀ S N, u.readers r ≠ .done S N) → access u e = some v →
      (∀ S N, v.readers r ≠ .done S N) ∨ (e = .readNodes r ∧ ∃ S, u.readers r = .holding S) := by
    intro u e v none stepped
    rcases access_reader stepped r with same | ⟨-, -, read⟩ | ⟨rfl, S, holding, -⟩
    · exact Or.inl (fun S N => by rw [same]; exact none S N)
    · exact Or.inl (fun S N => by rw [read]; simp)
    · exact Or.inr ⟨rfl, S, holding⟩
  have first : ∀ u e v, (∀ S, u.readers r ≠ .holding S) → access u e = some v →
      (∀ S, v.readers r ≠ .holding S) ∨ e = .readSnapshot r := by
    intro u e v none stepped
    rcases access_reader stepped r with same | ⟨rfl, -, -⟩ | ⟨-, S, -, read⟩
    · exact Or.inl (fun S => by rw [same]; exact none S)
    · exact Or.inr rfl
    · exact Or.inl (fun S => by rw [read]; simp)
  rcases run_kept_or_taken second ran (by simp [Locks.new]) with
    never | ⟨early, e, after, m, rfl, begun, -, rfl, S', holding⟩
  · exact absurd seen (never S N)
  · rcases run_kept_or_taken first begun (by simp [Locks.new]) with
      never | ⟨before, e, between, n, rfl, -, -, rfl⟩
    · exact absurd holding (never S')
    · exact ⟨before, between, after, by simp⟩

/-- Exactly when every reader of a run gets the node list of its snapshot: as many publishes have written
their nodes before its second access as have written their snapshot before its first, or the two in
question list the same nodes. -/
theorem readers_consistent_iff (ran : run access (Locks.new now) events = some t) :
    (∀ r S N, t.readers r = .done S N → N = nodeEntries S) ↔
      ∀ r before between after, events = before ++ .readSnapshot r :: (between ++ .readNodes r :: after) →
        nodesWrites (before ++ .readSnapshot r :: between) = snapshotWrites before ∨
          nodeEntries (installed now events (nodesWrites (before ++ .readSnapshot r :: between))) =
            nodeEntries (installed now events (snapshotWrites before)) := by
  have seen : ∀ r before between after, events = before ++ .readSnapshot r :: (between ++ .readNodes r :: after) →
      t.readers r = .done (installed now events (snapshotWrites before))
        (nodeEntries (installed now events (nodesWrites (before ++ .readSnapshot r :: between)))) := by
    rintro r before between after rfl
    have done := done_of_split ran
    obtain ⟨m, first, rest⟩ := (run_append access).mp ran
    obtain ⟨m', reads, rest⟩ := (run_cons access).mp rest
    obtain ⟨n, middle, -⟩ := (run_append access).mp rest
    have whole : run access (Locks.new now) (before ++ .readSnapshot r :: between) = some n :=
      (run_append access).mpr ⟨m, first, (run_cons access).mpr ⟨m', reads, middle⟩⟩
    have regroup : before ++ .readSnapshot r :: (between ++ .readNodes r :: after) =
        (before ++ .readSnapshot r :: between) ++ .readNodes r :: after := by simp
    rw [installed_append now before _ (tracks_run first).publisher.bounds.1, regroup,
      installed_append now _ (.readNodes r :: after) (tracks_run whole).publisher.bounds.2]
    exact done
  constructor
  · intro consistent r before between after split
    exact Or.inr (consistent r _ _ (seen r before between after split))
  · intro matched r S N done
    obtain ⟨before, between, after, split⟩ := split_of_done ran done
    obtain ⟨rfl, rfl⟩ := Reader.done.inj (done.symm.trans (seen r before between after split))
    rcases matched r before between after split with even | same
    · rw [even]
    · exact same

end

def loneCrawl : Snapshot :=
  { Snapshot.default 0 with
    numPeers := 1
    peers :=
      [ { peerId := "QmA", shortPeerId := "QmA", publicName := none, version := none, state := "unannounced"
          shardLoading := false, model := none, span := none, throughput := 0.0, usingRelay := none
          vpk := none, trustAttestations := 0
          peerIpInfo := {}, kad := true, announced := false } ] }

theorem readers_consistent_after_publish :
    ∃ t, run access (Locks.new 0)
        [.readServed loneCrawl, .writeSnapshot, .writeNodes, .readSnapshot 0, .readNodes 0] = some t ∧
      t.readers 0 = .done loneCrawl (nodeEntries loneCrawl) ∧
      ∀ r S N, t.readers r = .done S N → N = nodeEntries S := by
  obtain ⟨t, ran, seen⟩ : ∃ t, run access (Locks.new 0)
      [.readServed loneCrawl, .writeSnapshot, .writeNodes, .readSnapshot 0, .readNodes 0] = some t ∧
      t.readers 0 = .done loneCrawl (nodeEntries loneCrawl) := ⟨_, rfl, rfl⟩
  refine ⟨t, ran, seen, (readers_consistent_iff ran).mpr ?_⟩
  intro r before between after split
  rcases before with _ | ⟨a, _ | ⟨b, _ | ⟨c, _ | ⟨d, _ | ⟨e, before⟩⟩⟩⟩⟩ <;> simp at split
  obtain ⟨rfl, rfl, rfl, -, last⟩ := split
  cases between with
  | nil => exact Or.inl rfl
  | cons e between => simp at last

/-- Read between the two writes of the first publish: a peer in the snapshot, none in the list. -/
theorem reader_sees_half_a_publish :
    ∃ t, run access (Locks.new 0) [.readServed loneCrawl, .writeSnapshot, .readSnapshot 0, .readNodes 0] = some t ∧
      t.readers 0 = .done loneCrawl [] ∧ [] ≠ nodeEntries loneCrawl :=
  ⟨_, rfl, rfl, by decide⟩

end KwaaiNetMap
