import KwaaiNetMap.Crawler.Observed
import Mathlib.Data.Finset.Image

/-!
`Reachability.check` dials one candidate after another on the swarm the crawler uses, and hangs up on
the peer as soon as one connects. `step` is one command of the probe, of the crawler or of a remote,
handled by the swarm alone.
-/

namespace KwaaiNetMap
open Collections

/-! ### The swarm -/

/-- A connection. Ids are never used twice. -/
structure Link where
  id : Nat
  peer : PeerId
  deriving DecidableEq

structure Call where
  id : Nat
  link : Link
  deriving DecidableEq

structure Swarm where
  links : Finset Link
  calls : Finset Call
  nextId : Nat
  fresh : ∀ l ∈ links, l.id < nextId
  carried : ∀ c ∈ calls, c.link ∈ links

namespace Swarm

def connected (swarm : Swarm) (peer : PeerId) : Prop := ∃ l ∈ swarm.links, l.peer = peer

instance (swarm : Swarm) (peer : PeerId) : Decidable (swarm.connected peer) :=
  inferInstanceAs (Decidable (∃ l ∈ swarm.links, l.peer = peer))

def opened (swarm : Swarm) (peer : PeerId) : Swarm where
  links := insert ⟨swarm.nextId, peer⟩ swarm.links
  calls := swarm.calls
  nextId := swarm.nextId + 1
  fresh l member := by
    rcases Finset.mem_insert.mp member with rfl | old
    · exact Nat.lt_succ_self _
    · exact Nat.lt_succ_of_lt (swarm.fresh l old)
  carried c member := Finset.mem_insert_of_mem (swarm.carried c member)

/-- A dial that reached `peer`: for a connected peer it opens nothing. -/
def connect (swarm : Swarm) (peer : PeerId) : Swarm :=
  if swarm.connected peer then swarm else swarm.opened peer

def keep (swarm : Swarm) (p : Link → Prop) [DecidablePred p] : Swarm where
  links := swarm.links.filter p
  calls := swarm.calls.filter fun c => p c.link
  nextId := swarm.nextId
  fresh l member := swarm.fresh l (Finset.mem_filter.mp member).1
  carried c member := by
    obtain ⟨outstanding, kept⟩ := Finset.mem_filter.mp member
    exact Finset.mem_filter.mpr ⟨swarm.carried c outstanding, kept⟩

def disconnect (swarm : Swarm) (peer : PeerId) : Swarm := swarm.keep fun l => l.peer ≠ peer

def closed (swarm : Swarm) (l : Link) : Swarm := swarm.keep fun k => k ≠ l

def send (swarm : Swarm) (c : Call) (up : c.link ∈ swarm.links) : Swarm where
  links := swarm.links
  calls := insert c swarm.calls
  nextId := swarm.nextId
  fresh := swarm.fresh
  carried k member := by
    rcases Finset.mem_insert.mp member with rfl | old
    · exact up
    · exact swarm.carried k old

def ended (swarm : Swarm) (c : Call) : Swarm where
  links := swarm.links
  calls := swarm.calls.erase c
  nextId := swarm.nextId
  fresh := swarm.fresh
  carried k member := swarm.carried k (Finset.mem_of_mem_erase member)

end Swarm

/-! ### The probe -/

structure Verdict where
  ok : Bool
  error : Option String := none
  deriving DecidableEq

structure ReachabilityCache where
  cache : HashMap String (Nat × Verdict)

def cacheTtlSecs : Nat := 300

def dialTimeoutSecs : Nat := 5

inductive Probe where
  | dialing (target : PeerId) (addr : String) (rest : List String)
  | hangingUp (target : PeerId)
  | done (verdict : Verdict)
  deriving DecidableEq

def Probe.tryNext (target : PeerId) (last : String) : List String → Probe
  | [] => done { ok := false, error := some last }
  | addr :: rest => dialing target addr rest

/-- Every known address, then the bare id. -/
def Probe.dial (parsePeerId : String → Option PeerId) (peerId : String) (addrs : List String) : Probe :=
  match parsePeerId peerId with
  | none => done { ok := false, error := some "not a peer id" }
  | some parsed => tryNext parsed "no candidate address" (addrs ++ ["/p2p/" ++ peerId])

def ReachabilityCache.check (reach : ReachabilityCache) (parsePeerId : String → Option PeerId) (now : Nat)
    (peerId : String) (addrs : List String) : Probe :=
  match reach.cache.get? peerId with
  | some (reached, verdict) =>
    if now - reached < cacheTtlSecs then .done verdict else .dial parsePeerId peerId addrs
  | none => .dial parsePeerId peerId addrs

/-! ### The interleaving -/

inductive DialEnd where
  | reached (peer : PeerId)
  | failed (message : String)
  | timedOut
  deriving DecidableEq

def DialEnd.possible (leads : PeerId → Bool) : DialEnd → Bool
  | reached peer => leads peer
  | _ => true

def dialTimeoutMessage : String :=
  "failed to connect in " ++ toString dialTimeoutSecs ++ " sec. Firewall may be blocking connections"

inductive Event where
  | probeDials (result : DialEnd)
  | probeHangsUp
  | crawlDials (result : DialEnd)
  | crawlCalls (c : Call)
  | callEnds (c : Call)
  /-- A remote dials in, or a dial that timed out connects after all. -/
  | opens (peer : PeerId)
  | remoteCloses (l : Link)
  deriving DecidableEq

structure Session where
  swarm : Swarm
  probe : Probe
  abandoned : Finset Call := ∅

def Swarm.dialed (swarm : Swarm) : DialEnd → Swarm
  | .reached peer => swarm.connect peer
  | .failed _ => swarm
  | .timedOut => swarm

def Probe.dialed (target : PeerId) (rest : List String) : DialEnd → Probe
  | .reached _ => .hangingUp target
  | .failed message => .tryNext target message rest
  | .timedOut => .tryNext target dialTimeoutMessage rest

/-- One event; `leads` says which peers an address can reach. -/
def step (leads : String → PeerId → Bool) (s : Session) : Event → Option Session
  | .probeDials result =>
    match s.probe with
    | .dialing target addr rest =>
      if result.possible (leads addr) then
        some { s with swarm := s.swarm.dialed result, probe := .dialed target rest result }
      else none
    | _ => none
  | .probeHangsUp =>
    match s.probe with
    | .hangingUp target =>
      some
        { swarm := s.swarm.disconnect target
          probe := .done { ok := true }
          abandoned := s.abandoned ∪ s.swarm.calls.filter fun c => c.link.peer = target }
    | _ => none
  | .crawlDials result => some { s with swarm := s.swarm.dialed result }
  | .crawlCalls c =>
    if up : c.link ∈ s.swarm.links then some { s with swarm := s.swarm.send c up } else none
  | .callEnds c => if c ∈ s.swarm.calls then some { s with swarm := s.swarm.ended c } else none
  | .opens peer => some { s with swarm := s.swarm.opened peer }
  | .remoteCloses l => if l ∈ s.swarm.links then some { s with swarm := s.swarm.closed l } else none

end KwaaiNetMap
