import KwaaiNetMap.Crawler.Gather
import KwaaiNetMap.Dht.Sha1
import KwaaiNetMap.Dht.Wire

/-!
A network whose bootstraps answer by a script, one entry for each command sent to the swarm, in the bytes
they would send.
-/

namespace KwaaiNetMap
open Collections

def GeoIp.disabled : GeoIp := { cache := ∅, dns := ∅, enabled := false, statics := ∅ }

def CrawlInput.lone (rmpv : Rmpv) (model : Model) (responses : List FindResponse) : CrawlInput :=
  CrawlInput.withAnswers { geo := .disabled } rmpv .insertion [(model, responses)] []

def FindResult.dictionary (w : Wire) : FindResult := { resultType := 2, value := w.bytes }

def FindResult.notFound : FindResult := { resultType := 0, value := [] }

def varint (n : Nat) : Bytes :=
  if n < 128 then [UInt8.ofNat n] else [UInt8.ofNat (n % 128 + 128), UInt8.ofNat (n / 128)]

def FindResult.encode (r : FindResult) : Bytes :=
  0x08 :: Wire.byte r.resultType :: 0x12 :: varint r.value.length ++ r.value

def FindResponse.encode (resp : FindResponse) : Bytes :=
  resp.results.flatMap fun r => 0x12 :: varint r.encode.length ++ r.encode

/-- Every dial succeeds; the call sent as command `n` is answered by entry `n` of the script, if any. -/
def Network.scripted (script : List (Option FindResponse)) : Network :=
  { parsePeerId := some
    packStr := fun s => (Wire.str s).bytes
    sha1 := KwaaiNetMap.sha1
    callUnaryHandler := fun n _ _ => (script[n]?.join).map FindResponse.encode
    decodeFindResponse := fun bytes => (script.filterMap id).find? fun resp => resp.encode = bytes
    connectPeer := fun _ _ => .ok }

def World.scripted (script : List (Option FindResponse)) : World :=
  { net := .scripted script, localPeerId := "QmObserver" }

end KwaaiNetMap
