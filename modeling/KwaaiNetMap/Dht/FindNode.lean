import Mathlib.Data.List.Induction
import Mathlib.Data.List.Nodup
import Mathlib.Logic.Function.Basic

/-!
The patched Kademlia answers a lookup from its k-buckets and from a peerstore its owner feeds. Whatever the owner
and the swarm did before, a peer the node vouches for comes first in the answer to its own lookup, once, and the
others come as the k-buckets gave them (`find_node_answers`). Its protocols are the last ones set, and there is
always one (`protocol_names_set`).
-/

namespace KwaaiNetMap.Kad

inductive ConnectionType where
  | notConnected
  | connected
  | canConnect
  | cannotConnect
  deriving DecidableEq

structure KadPeer (Peer Addr : Type) where
  nodeId : Peer
  multiaddrs : List Addr
  connectionTy : ConnectionType

structure Config (Name : Type) where
  protocolNames : List Name

/-- An empty list is ignored: a kad with no protocols could talk to nobody. -/
def Config.setProtocolNames {Name : Type} (config : Config Name) (names : List Name) : Config Name :=
  if names.isEmpty then config else { protocolNames := names }

structure Behaviour (Peer Addr : Type) where
  connectedPeers : Peer → Bool
  peerstore : Peer → Option (List Addr)

inductive Event (Peer Addr : Type) where
  | connected (peer : Peer)
  | disconnected (peer : Peer)
  | setPeerstoreAddresses (peer : Peer) (addrs : List Addr)

section
variable {Peer Addr : Type} [DecidableEq Peer]

/-- Empty removes. -/
def Behaviour.setPeerstoreAddresses (kad : Behaviour Peer Addr) (peer : Peer) (addrs : List Addr) :
    Behaviour Peer Addr :=
  { kad with peerstore := Function.update kad.peerstore peer (if addrs.isEmpty then none else some addrs) }

def Behaviour.on (kad : Behaviour Peer Addr) : Event Peer Addr → Behaviour Peer Addr
  | .connected peer => { kad with connectedPeers := Function.update kad.connectedPeers peer true }
  | .disconnected peer => { kad with connectedPeers := Function.update kad.connectedPeers peer false }
  | .setPeerstoreAddresses peer addrs => kad.setPeerstoreAddresses peer addrs

/-- The answer to `FindNodeReq`, given the target its key names and what `find_closest_local_peers` finds. -/
def Behaviour.findNodeReq (kad : Behaviour Peer Addr) (target : Option Peer)
    (closerPeers : List (KadPeer Peer Addr)) : List (KadPeer Peer Addr) :=
  match target with
  | none => closerPeers
  | some target =>
    if closerPeers.head?.map KadPeer.nodeId ≠ some target then
      match kad.peerstore target with
      | some addrs =>
        { nodeId := target
          multiaddrs := addrs
          connectionTy := if kad.connectedPeers target then .connected else .canConnect } ::
          closerPeers.filter fun p => p.nodeId ≠ target
      | none => closerPeers
    else closerPeers

/-! ### What the events come to -/

def vouchedAfter (target : Peer) (last : Option (List Addr)) : Event Peer Addr → Option (List Addr)
  | .setPeerstoreAddresses peer addrs => if peer = target then (if addrs.isEmpty then none else some addrs) else last
  | _ => last

def connectedAfter (target : Peer) (last : Bool) : Event Peer Addr → Bool
  | .connected peer => if peer = target then true else last
  | .disconnected peer => if peer = target then false else last
  | _ => last

/-- The last addresses the owner gave for a peer, unless it took them back. -/
def vouched (events : List (Event Peer Addr)) (target : Peer) : Option (List Addr) :=
  events.foldl (vouchedAfter target) none

def isConnected (events : List (Event Peer Addr)) (target : Peer) : Bool :=
  events.foldl (connectedAfter target) false

def Behaviour.new : Behaviour Peer Addr := { connectedPeers := fun _ => false, peerstore := fun _ => none }

theorem peerstore_on (kad : Behaviour Peer Addr) (event : Event Peer Addr) (target : Peer) :
    (kad.on event).peerstore target = vouchedAfter target (kad.peerstore target) event := by
  cases event with
  | connected peer => rfl
  | disconnected peer => rfl
  | setPeerstoreAddresses peer addrs =>
    show Function.update kad.peerstore peer _ target = if peer = target then _ else _
    by_cases same : peer = target
    · rw [same, Function.update_self, if_pos rfl]
    · rw [Function.update_of_ne (Ne.symm same), if_neg same]

theorem connectedPeers_on (kad : Behaviour Peer Addr) (event : Event Peer Addr) (target : Peer) :
    (kad.on event).connectedPeers target = connectedAfter target (kad.connectedPeers target) event := by
  have updated (peer : Peer) (up : Bool) :
      Function.update kad.connectedPeers peer up target = if peer = target then up else kad.connectedPeers target := by
    by_cases same : peer = target
    · rw [same, Function.update_self, if_pos rfl]
    · rw [Function.update_of_ne (Ne.symm same), if_neg same]
  cases event with
  | connected peer => exact updated peer true
  | disconnected peer => exact updated peer false
  | setPeerstoreAddresses peer addrs => rfl

section
variable {kad : Behaviour Peer Addr} {target : Peer} {closerPeers : List (KadPeer Peer Addr)}

theorem findNodeReq_cases (kad : Behaviour Peer Addr) (target : Peer) (closerPeers : List (KadPeer Peer Addr)) :
    (kad.findNodeReq (some target) closerPeers = closerPeers ∧
        (kad.peerstore target = none ∨ closerPeers.head?.map KadPeer.nodeId = some target)) ∨
      ∃ addrs, kad.peerstore target = some addrs ∧ closerPeers.head?.map KadPeer.nodeId ≠ some target ∧
        kad.findNodeReq (some target) closerPeers =
          ⟨target, addrs, if kad.connectedPeers target then .connected else .canConnect⟩ ::
            closerPeers.filter fun p => p.nodeId ≠ target := by
  unfold Behaviour.findNodeReq
  dsimp only
  split
  · rename_i behind
    split
    · rename_i addrs held
      exact Or.inr ⟨addrs, held, behind, rfl⟩
    · rename_i unknown
      exact Or.inl ⟨rfl, Or.inl unknown⟩
  · rename_i first
    exact Or.inl ⟨rfl, Or.inr (not_not.mp first)⟩

theorem others_findNodeReq :
    ((kad.findNodeReq (some target) closerPeers).filter fun p => p.nodeId ≠ target) =
      closerPeers.filter fun p => p.nodeId ≠ target := by
  rcases findNodeReq_cases kad target closerPeers with ⟨same, -⟩ | ⟨addrs, -, -, answer⟩
  · rw [same]
  · rw [answer, List.filter_cons_of_neg (by simp), List.filter_filter]
    simp

theorem distinct_findNodeReq (distinct : (closerPeers.map KadPeer.nodeId).Nodup) :
    ((kad.findNodeReq (some target) closerPeers).map KadPeer.nodeId).Nodup := by
  rcases findNodeReq_cases kad target closerPeers with ⟨same, -⟩ | ⟨addrs, -, -, answer⟩
  · rwa [same]
  · rw [answer, List.map_cons]
    refine List.nodup_cons.mpr ⟨?_, distinct.sublist (List.filter_sublist.map _)⟩
    intro member
    obtain ⟨other, kept, same⟩ := List.mem_map.mp member
    exact of_decide_eq_true (List.mem_filter.mp kept).2 same

end

/-! ### Over a run -/

variable {events : List (Event Peer Addr)} {target : Peer}

theorem peerstore_run :
    (events.foldl Behaviour.on (Behaviour.new)).peerstore target = vouched events target :=
  (List.foldl_hom (fun kad : Behaviour Peer Addr => kad.peerstore target)
    fun kad event => (peerstore_on kad event target).symm).symm

theorem connectedPeers_run :
    (events.foldl Behaviour.on (Behaviour.new)).connectedPeers target = isConnected events target :=
  (List.foldl_hom (fun kad : Behaviour Peer Addr => kad.connectedPeers target)
    fun kad event => (connectedPeers_on kad event target).symm).symm

theorem vouched_filled {addrs : List Addr} (held : vouched events target = some addrs) : addrs ≠ [] := by
  induction events using List.reverseRecOn with
  | nil => cases held
  | append_singleton events event ih =>
    rw [vouched, List.foldl_concat, ← vouched] at held
    cases event with
    | setPeerstoreAddresses peer given =>
      dsimp only [vouchedAfter] at held
      split at held
      · split at held
        · cases held
        · rename_i filled
          obtain rfl := Option.some.inj held
          exact fun empty => filled (List.isEmpty_iff.mpr empty)
      · exact ih held
    | _ => exact ih held

theorem protocol_names_set {Name : Type} {config : Config Name} (some_ : config.protocolNames ≠ [])
    (settings : List (List Name)) :
    let names := (settings.foldl Config.setProtocolNames config).protocolNames
    names = ((settings.filter fun names => !names.isEmpty).getLast?).getD config.protocolNames ∧ names ≠ [] := by
  induction settings using List.reverseRecOn with
  | nil => exact ⟨rfl, some_⟩
  | append_singleton settings names ih =>
    rw [List.foldl_concat, List.filter_append, Config.setProtocolNames]
    by_cases empty : names.isEmpty = true
    · simpa [empty] using ih
    · refine ⟨?_, ?_⟩
      · simp [empty]
      · rw [if_neg empty]
        exact fun none => empty (List.isEmpty_iff.mpr none)

/-- Whatever the owner and the swarm did, the answer to a lookup of `target` has the others as the k-buckets gave
them. A target last given addresses comes first in it, with these unless the k-buckets have it first themselves,
and marked as connected or not as the swarm last said; any other leaves the k-buckets' answer. Nobody comes twice if
nobody does in theirs. -/
theorem find_node_answers (events : List (Event Peer Addr)) (target : Peer)
    (closerPeers : List (KadPeer Peer Addr)) :
    let answer := (events.foldl Behaviour.on (Behaviour.new)).findNodeReq (some target) closerPeers
    ((answer.filter fun p => p.nodeId ≠ target) = closerPeers.filter fun p => p.nodeId ≠ target) ∧
      (vouched events target = none → answer = closerPeers) ∧
      (∀ addrs, vouched events target = some addrs → addrs ≠ [] ∧ answer.head?.map KadPeer.nodeId = some target ∧
        (closerPeers.head?.map KadPeer.nodeId = some target ∧ answer = closerPeers ∨
          answer.head? = some ⟨target, addrs, if isConnected events target then .connected else .canConnect⟩)) ∧
      ((closerPeers.map KadPeer.nodeId).Nodup → (answer.map KadPeer.nodeId).Nodup) := by
  intro answer
  have cases_ := findNodeReq_cases (events.foldl Behaviour.on (Behaviour.new)) target closerPeers
  rw [peerstore_run, connectedPeers_run] at cases_
  refine ⟨others_findNodeReq, ?_, ?_, distinct_findNodeReq⟩
  · intro silent
    rcases cases_ with ⟨same, -⟩ | ⟨addrs, held, -⟩
    · exact same
    · rw [silent] at held
      cases held
  · intro addrs held
    refine ⟨vouched_filled held, ?_⟩
    rcases cases_ with ⟨same, unknown | first⟩ | ⟨given, held', -, put⟩
    · rw [unknown] at held
      cases held
    · have front : answer.head?.map KadPeer.nodeId = some target :=
        (congrArg (fun peers : List (KadPeer Peer Addr) => peers.head?.map KadPeer.nodeId) same).trans first
      exact ⟨front, Or.inl ⟨first, same⟩⟩
    · obtain rfl := Option.some.inj (held'.symm.trans held)
      have front : answer.head? = _ := congrArg List.head? put
      exact ⟨by rw [front]; rfl, Or.inr front⟩

end

end KwaaiNetMap.Kad
