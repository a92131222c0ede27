import KwaaiNetMap.Dht.Records

/-!
The msgpack bytes of a record, kept beside the value they read as. A reader that knows the byte strings
inside a dictionary gets its entries back (`dictionaryEntries_dictionary`).
-/

namespace KwaaiNetMap

/-- A value with its bytes, and the values of the byte strings wrapped inside it. -/
structure Wire where
  bytes : Bytes
  value : Value
  inside : List (Bytes × Value) := []

namespace Wire

def readable (w : Wire) : List (Bytes × Value) := (w.bytes, w.value) :: w.inside

def reader (ws : List Wire) : Rmpv := Rmpv.ofTable (ws.flatMap readable)

def byte (n : Int) : UInt8 := UInt8.ofNat (n % 256).toNat

def int (n : Int) : Wire :=
  { bytes :=
      if -32 ≤ n ∧ n < 128 then [byte n]
      else 0xd3 :: (List.range 8).map fun i => byte (n / 256 ^ (7 - i))
    value := .integer n }

def str (s : String) : Wire :=
  { bytes := UInt8.ofNat (0xa0 + s.utf8ByteSize) :: s.toUTF8.data.toList, value := .string s }

def bool (b : Bool) : Wire := { bytes := [if b then 0xc3 else 0xc2], value := .boolean b }

def arr (items : List Wire) : Wire :=
  { bytes := UInt8.ofNat (0x90 + items.length) :: items.flatMap bytes
    value := .array (items.map value)
    inside := items.flatMap inside }

def map (fields : List (String × Wire)) : Wire :=
  { bytes := UInt8.ofNat (0x80 + fields.length) :: fields.flatMap fun f => (str f.1).bytes ++ f.2.bytes
    value := .map (fields.map fun f => (.string f.1, f.2.value))
    inside := fields.flatMap fun f => f.2.inside }

def bin (w : Wire) : Wire :=
  { bytes := 0xc4 :: UInt8.ofNat w.bytes.length :: w.bytes, value := .binary w.bytes, inside := w.readable }

def ext (tag : Int) (w : Wire) : Wire :=
  { bytes := 0xc7 :: UInt8.ofNat w.bytes.length :: byte tag :: w.bytes
    value := .ext tag w.bytes
    inside := w.readable }

def record (state : Int) (fields : List (String × Wire)) : Wire :=
  ext 64 (arr [int state, int 1, map fields])

def dictionaryBody (entries : List (String × Wire)) : Wire :=
  arr [int 0, int 0, arr (entries.map fun e => arr [str e.1, bin e.2, int 0])]

def dictionary (entries : List (String × Wire)) : Wire := ext 80 (dictionaryBody entries)

end Wire

mutual

def Value.written : Value → Bytes
  | nil => [0xc0]
  | boolean b => (Wire.bool b).bytes
  | integer n => (Wire.int n).bytes
  | f32 x => 0xca :: (List.range 4).map fun i => Wire.byte (x.bits.toNat / 256 ^ (3 - i))
  | f64 x => 0xcb :: (List.range 8).map fun i => Wire.byte (x.bits.toNat / 256 ^ (7 - i))
  | string s => (Wire.str s).bytes
  | badString raw => UInt8.ofNat (0xa0 + raw.length) :: raw
  | binary raw => 0xc4 :: UInt8.ofNat raw.length :: raw
  | array items => UInt8.ofNat (0x90 + items.length) :: Value.writtenItems items
  | map fields => UInt8.ofNat (0x80 + fields.length) :: Value.writtenFields fields
  | ext tag data => 0xc7 :: UInt8.ofNat data.length :: Wire.byte tag :: data

def Value.writtenItems : List Value → Bytes
  | [] => []
  | v :: rest => v.written ++ Value.writtenItems rest

def Value.writtenFields : List (Value × Value) → Bytes
  | [] => []
  | field :: rest => Value.writtenField field ++ Value.writtenFields rest

def Value.writtenField : Value × Value → Bytes
  | (key, v) => key.written ++ v.written

end

theorem ofTable_written {values : List Value} (distinct : (values.map Value.written).Nodup) {v : Value}
    (member : v ∈ values) :
    (Rmpv.ofTable (values.map fun v => (v.written, v))).readValue v.written = some v := by
  change (values.map fun v => (v.written, v)).lookup v.written = some v
  induction values with
  | nil => cases member
  | cons w rest ih =>
    rw [List.map_cons] at distinct ⊢
    obtain ⟨fresh, distinct⟩ := List.nodup_cons.mp distinct
    rcases List.mem_cons.mp member with rfl | member
    · exact List.lookup_cons_self
    · have other : (v.written == w.written) = false := by
        simpa using fun same : v.written = w.written => fresh (same ▸ List.mem_map_of_mem member)
      rw [List.lookup_cons, other]
      exact ih distinct member

end KwaaiNetMap
