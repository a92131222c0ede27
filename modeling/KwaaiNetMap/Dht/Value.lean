import KwaaiNetMap.Numeric.Machine

/-!
The msgpack values a record decodes to, the JSON values a snapshot carries, and the two functions
the decoders take from their libraries.
-/

namespace KwaaiNetMap
open Numeric

abbrev Bytes := List UInt8

inductive Json where
  | null
  | bool (b : Bool)
  | int (n : Int)
  | float (x : F64)
  | string (s : String)
  | array (items : List Json)
  | object (fields : List (String × Json))

inductive Value where
  | nil
  | boolean (b : Bool)
  | integer (n : Int)
  | f32 (x : F32)
  | f64 (x : F64)
  | string (s : String)
  | badString (raw : Bytes)
  | binary (raw : Bytes)
  | array (items : List Value)
  | map (fields : List (Value × Value))
  | ext (tag : Int) (data : Bytes)

namespace Value

def asStr : Value → Option String
  | string s => some s
  | _ => none

def asBool : Value → Option Bool
  | boolean b => some b
  | _ => none

/-- Integers past the range of `i64` have no `i64` reading. -/
def asI64 : Value → Option Int
  | integer n => if InI64 n then some n else none
  | _ => none

def asF64 : Value → Option F64
  | integer n => some (.ofFloat (intToFloat n))
  | f32 x => some x.toF64
  | f64 x => some x
  | _ => none

def asArray : Value → Option (List Value)
  | array items => some items
  | _ => none

def asMap : Value → Option (List (Value × Value))
  | map fields => some fields
  | _ => none

theorem eq_array_of_asArray {v : Value} {items : List Value} (read : v.asArray = some items) : v = .array items := by
  cases v <;> cases read
  rfl

theorem eq_map_of_asMap {v : Value} {fields : List (Value × Value)} (read : v.asMap = some fields) :
    v = .map fields := by
  cases v <;> cases read
  rfl

theorem asI64_inI64 {v : Value} {n : Int} (read : v.asI64 = some n) : InI64 n := by
  unfold asI64 at read
  split at read
  · split at read
    · rename_i fits
      exact Option.some.inj read ▸ fits
    · cases read
  · cases read

end Value

/-- What the decoders take from `rmpv` and `serde_json`: reading the value at the front of a byte
string, whatever follows it, and the JSON form of a value, where it has one. -/
structure Rmpv where
  readValue : Bytes → Option Value
  toJson : Value → Option Json

def Rmpv.ofTable (table : List (Bytes × Value)) : Rmpv :=
  ⟨fun bytes => table.lookup bytes, fun _ => none⟩

end KwaaiNetMap
