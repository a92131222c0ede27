import Mathlib.Data.List.Basic
import Mathlib.Data.UInt

/-!
`IpAddr`, its textual forms as the standard library reads and prints them, and the address ranges
the geolocation filter asks about.
-/

namespace KwaaiNetMap

structure Ipv6Addr where
  segments : List UInt16
  size : segments.length = 8
  deriving DecidableEq

inductive IpAddr where
  | v4 (a b c d : UInt8)
  | v6 (addr : Ipv6Addr)
  deriving DecidableEq

namespace IpAddr

/-! ### Reading -/

abbrev Reader (α : Type) := List Char → Option (α × List Char)

def digitValue (radix : Nat) (c : Char) : Option Nat :=
  let value :=
    if '0' ≤ c ∧ c ≤ '9' then some (c.toNat - '0'.toNat)
    else if 'a' ≤ c ∧ c ≤ 'f' then some (c.toNat - 'a'.toNat + 10)
    else if 'A' ≤ c ∧ c ≤ 'F' then some (c.toNat - 'A'.toNat + 10)
    else none
  value.filter (· < radix)

def readNumber (radix maxDigits maxValue : Nat) (allowZeroPrefix : Bool) : Reader Nat := fun text =>
  let digits := (text.takeWhile (fun c => (digitValue radix c).isSome)).filterMap (digitValue radix)
  let value := digits.foldl (fun acc d => acc * radix + d) 0
  if digits.length > maxDigits ∨ digits.length = 0 then none
  else if !allowZeroPrefix ∧ digits.head? = some 0 ∧ digits.length > 1 then none
  else if value > maxValue then none
  else some (value, text.drop digits.length)

def readSeparated {α : Type} (sep : Char) (index : Nat) (inner : Reader α) : Reader α := fun text =>
  if index = 0 then inner text
  else
    match text with
    | c :: rest => if c = sep then inner rest else none
    | [] => none

def readIpv4 : Reader (UInt8 × UInt8 × UInt8 × UInt8) := fun text => do
  let octet := fun index => readSeparated '.' index (readNumber 10 3 255 false)
  let (a, text) ← octet 0 text
  let (b, text) ← octet 1 text
  let (c, text) ← octet 2 text
  let (d, text) ← octet 3 text
  return ((UInt8.ofNat a, UInt8.ofNat b, UInt8.ofNat c, UInt8.ofNat d), text)

/-- Up to `slots` of `limit` groups, with whether an embedded IPv4 address ended them. -/
def readGroups (limit : Nat) : Nat → List Char → List UInt16 × Bool × List Char
  | 0, text => ([], false, text)
  | slots + 1, text =>
    let index := limit - (slots + 1)
    match if index + 1 < limit then readSeparated ':' index readIpv4 text else none with
    | some ((a, b, c, d), rest) =>
      ([a.toUInt16 * 256 + b.toUInt16, c.toUInt16 * 256 + d.toUInt16], true, rest)
    | none =>
      match readSeparated ':' index (readNumber 16 4 65535 true) text with
      | some (group, rest) =>
        let (groups, embedded, rest) := readGroups limit slots rest
        (UInt16.ofNat group :: groups, embedded, rest)
      | none => ([], false, text)

def ofSegments (segments : List UInt16) : Option Ipv6Addr :=
  if size : segments.length = 8 then some ⟨segments, size⟩ else none

def readIpv6 : Reader Ipv6Addr := fun text =>
  let (head, embedded, rest) := readGroups 8 8 text
  if head.length = 8 then (ofSegments head).map (fun addr => (addr, rest))
  else if embedded then none
  else
    match rest with
    | ':' :: ':' :: rest =>
      let limit := 8 - (head.length + 1)
      let (tail, _, rest) := readGroups limit limit rest
      let zeros := List.replicate (8 - head.length - tail.length) 0
      (ofSegments (head ++ zeros ++ tail)).map (fun addr => (addr, rest))
    | _ => none

def parse (text : List Char) : Option IpAddr :=
  let read := ((readIpv4 text).map fun ((a, b, c, d), rest) => (v4 a b c d, rest)).or
    ((readIpv6 text).map fun (addr, rest) => (v6 addr, rest))
  match read with
  | some (ip, []) => some ip
  | _ => none

/-! ### Printing -/

def printIpv4 (a b c d : UInt8) : String :=
  s!"{a.toNat}.{b.toNat}.{c.toNat}.{d.toNat}"

def printHex (n : UInt16) : List Char := Nat.toDigits 16 n.toNat

def printSegments (segments : List UInt16) : List Char :=
  [':'].intercalate (segments.map printHex)

/-- The first longest run of zero segments, as its start and length. -/
def longestZeros (segments : List UInt16) : Nat × Nat :=
  let step := fun (state : (Nat × Nat) × (Nat × Nat)) (item : UInt16 × Nat) =>
    let (longest, current) := state
    if item.1 = 0 then
      let current := if current.2 = 0 then (item.2, 1) else (current.1, current.2 + 1)
      (if current.2 > longest.2 then current else longest, current)
    else (longest, (0, 0))
  (segments.zipIdx.foldl step ((0, 0), (0, 0))).1

def print : IpAddr → String
  | v4 a b c d => printIpv4 a b c d
  | v6 addr =>
    match addr.segments with
    | [0, 0, 0, 0, 0, 0xffff, ab, cd] =>
      "::ffff:" ++ printIpv4 (ab >>> 8).toUInt8 ab.toUInt8 (cd >>> 8).toUInt8 cd.toUInt8
    | segments =>
      let (start, len) := longestZeros segments
      if len > 1 then
        String.ofList (printSegments (segments.take start) ++ [':', ':'] ++
          printSegments (segments.drop (start + len)))
      else String.ofList (printSegments segments)

/-! ### Ranges -/

def isPrivate (a b : UInt8) : Bool :=
  a = 10 || (a = 172 && 16 ≤ b && b ≤ 31) || (a = 192 && b = 168)

def isLoopback (a : UInt8) : Bool := a = 127

def isLinkLocal (a b : UInt8) : Bool := a = 169 && b = 254

def isBroadcast (a b c d : UInt8) : Bool := a = 255 && b = 255 && c = 255 && d = 255

def isDocumentation (a b c : UInt8) : Bool :=
  (a = 192 && b = 0 && c = 2) || (a = 198 && b = 51 && c = 100) || (a = 203 && b = 0 && c = 113)

def isUnspecified (a b c d : UInt8) : Bool := a = 0 && b = 0 && c = 0 && d = 0

/-- Private, loopback and reserved ranges are never sent to the geolocation provider. -/
def isPublic : IpAddr → Bool
  | v4 a b c d =>
    !(isPrivate a b || isLoopback a || isLinkLocal a b || isBroadcast a b c d ||
      isDocumentation a b c || isUnspecified a b c d ||
      -- benchmarking, 198.18.0.0/15
      (a = 198 && b &&& 0xfe = 18) ||
      -- carrier-grade NAT, 100.64.0.0/10
      (a = 100 && 64 ≤ b && b < 128))
  | v6 addr =>
    !(addr.segments = [0, 0, 0, 0, 0, 0, 0, 1] || addr.segments = [0, 0, 0, 0, 0, 0, 0, 0] ||
      ((addr.segments.headD 0) >>> 8) &&& 0xfe = 0xfc)

end IpAddr

end KwaaiNetMap
