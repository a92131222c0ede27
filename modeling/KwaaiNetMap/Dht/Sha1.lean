import KwaaiNetMap.Dht.Value
import Mathlib.Data.List.Basic

/-!
The digest under which the DHT stores a key.
-/

namespace KwaaiNetMap

def rotateLeft (x : UInt32) (n : UInt32) : UInt32 := (x <<< n) ||| (x >>> (32 - n))

def bigEndian (bytes : Bytes) : UInt32 := bytes.foldl (fun w b => (w <<< 8) ||| b.toUInt32) 0

def sha1Padded (msg : Bytes) : Bytes :=
  msg ++ 0x80 :: List.replicate ((119 - msg.length % 64) % 64) 0 ++
    (List.range 8).map fun i => UInt8.ofNat (msg.length * 8 / 256 ^ (7 - i))

def sha1Schedule (block : Bytes) : List UInt32 :=
  (List.range 64).foldl
    (fun w i => w ++ [rotateLeft (w.getD (i + 13) 0 ^^^ w.getD (i + 8) 0 ^^^ w.getD (i + 2) 0 ^^^ w.getD i 0) 1])
    ((block.toChunks 4).map bigEndian)

structure Sha1State where
  a : UInt32
  b : UInt32
  c : UInt32
  d : UInt32
  e : UInt32

def sha1Round (s : Sha1State) (item : UInt32 × Nat) : Sha1State :=
  let (f, k) :=
    if item.2 < 20 then ((s.b &&& s.c) ||| (~~~s.b &&& s.d), 0x5a827999)
    else if item.2 < 40 then (s.b ^^^ s.c ^^^ s.d, 0x6ed9eba1)
    else if item.2 < 60 then ((s.b &&& s.c) ||| (s.b &&& s.d) ||| (s.c &&& s.d), 0x8f1bbcdc)
    else (s.b ^^^ s.c ^^^ s.d, 0xca62c1d6)
  { a := rotateLeft s.a 5 + f + s.e + k + item.1, b := s.a, c := rotateLeft s.b 30, d := s.c, e := s.d }

def sha1Block (h : Sha1State) (block : Bytes) : Sha1State :=
  let s := (sha1Schedule block).zipIdx.foldl sha1Round h
  { a := h.a + s.a, b := h.b + s.b, c := h.c + s.c, d := h.d + s.d, e := h.e + s.e }

def sha1 (msg : Bytes) : Bytes :=
  let h := ((sha1Padded msg).toChunks 64).foldl sha1Block
    { a := 0x67452301, b := 0xefcdab89, c := 0x98badcfe, d := 0x10325476, e := 0xc3d2e1f0 }
  [h.a, h.b, h.c, h.d, h.e].flatMap fun w : UInt32 =>
    [(w >>> 24).toUInt8, (w >>> 16).toUInt8, (w >>> 8).toUInt8, w.toUInt8]

example : sha1 [0x61, 0x62, 0x63] =
    [0xa9, 0x99, 0x3e, 0x36, 0x47, 0x06, 0x81, 0x6a, 0xba, 0x3e, 0x25, 0x71, 0x78, 0x50, 0xc2, 0x6c, 0x9c, 0xd0,
      0xd8, 0x9d] := by decide +kernel

end KwaaiNetMap
