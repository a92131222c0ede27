import KwaaiNetMap.Dht.Records
import KwaaiNetMap.Geoip.Locate

/-!
`BootstrapSet` is what a crawl pass has learned about each configured bootstrap; `rpcFind` asks one of
them and records whether it answered.
-/

namespace KwaaiNetMap

abbrev PeerId := String

structure BootstrapEntry where
  addr : String
  dialed : Bool := false
  answered : Bool := false
  deriving DecidableEq

structure BootstrapSet where
  entries : List BootstrapEntry
  deriving DecidableEq

namespace BootstrapSet

def new (addrs : List String) : BootstrapSet := ⟨addrs.map fun addr => { addr }⟩

def hasDialable (set : BootstrapSet) : Bool := set.entries.any (·.dialed)

def live (set : BootstrapSet) : List String := (set.entries.filter (·.dialed)).map (·.addr)

def updateFirst (addr : String) (f : BootstrapEntry → BootstrapEntry) : List BootstrapEntry → List BootstrapEntry
  | [] => []
  | e :: rest => if e.addr = addr then f e :: rest else e :: updateFirst addr f rest

def record (set : BootstrapSet) (addr : String) (answered : Bool) : BootstrapSet :=
  ⟨updateFirst addr (fun e => if answered then { e with answered := true } else { e with dialed := false })
    set.entries⟩

def states (set : BootstrapSet) : List String :=
  set.entries.map fun e => if e.answered then "online" else "offline"

end BootstrapSet

/-! ### Queries -/

structure FindResult where
  resultType : Int
  value : Bytes
  deriving DecidableEq

structure FindResponse where
  results : List FindResult
  deriving DecidableEq

structure FindRequest where
  keys : List Bytes
  nodeId : Bytes

inductive Dial where
  | ok
  | err (message : String)
  | timeout
  deriving DecidableEq

def Dial.isOk : Dial → Bool
  | ok => true
  | _ => false

/-- The swarm and the libraries under it, as one pass meets them: what each command sent to the
swarm comes back with, by the number of commands sent before it. -/
structure Network where
  parsePeerId : String → Option PeerId
  packStr : String → Bytes
  sha1 : Bytes → Bytes
  callUnaryHandler : Nat → PeerId → FindRequest → Option Bytes
  decodeFindResponse : Bytes → Option FindResponse
  connectPeer : Nat → String → Dial

/-- `DHTID.generate()`: the digest of the msgpack encoding of the key. -/
def dhtKey (net : Network) (rawKey : String) : Bytes := net.sha1 (net.packStr rawKey)

def queriedPeer (net : Network) (bootstrap : String) : Option PeerId :=
  (Text.secondPiece p2pMark bootstrap.toList).bind (fun id => net.parsePeerId (String.ofList id))

structure Pass where
  set : BootstrapSet
  commands : Nat := 0

section Rpc
variable (net : Network) (ourDhtid : Bytes)

def rpcFindInner (bootstrap : String) (keys : List Bytes) (commands : Nat) : Option FindResponse × Nat :=
  match queriedPeer net bootstrap with
  | none => (none, commands)
  | some bp =>
    let request : FindRequest := { keys, nodeId := ourDhtid }
    match net.callUnaryHandler commands bp request with
    | some resp => (net.decodeFindResponse resp, commands + 1)
    | none =>
      -- the redial is a command of its own; its outcome is only logged
      let retried := net.callUnaryHandler (commands + 2) bp request
      (retried.bind net.decodeFindResponse, commands + 3)

def rpcFind (pass : Pass) (bootstrap : String) (keys : List Bytes) : Option FindResponse × Pass :=
  let (response, commands) := rpcFindInner net ourDhtid bootstrap keys pass.commands
  (response, { set := pass.set.record bootstrap response.isSome, commands })

def askEach (keys : List Bytes) : List String → Pass → List FindResponse × Pass
  | [], pass => ([], pass)
  | addr :: rest, pass =>
    match rpcFind net ourDhtid pass addr keys with
    | (none, pass) => askEach keys rest pass
    | (some resp, pass) =>
      let (responses, pass) := askEach keys rest pass
      (resp :: responses, pass)

end Rpc

end KwaaiNetMap
