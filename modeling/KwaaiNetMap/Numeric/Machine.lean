import Mathlib.Data.Int.Basic
import Mathlib.Data.UInt

/-!
Signed 64-bit arithmetic with and without overflow checks, and the total order on binary64.
-/

namespace Numeric

def InI64 (n : Int) : Prop := -2 ^ 63 ≤ n ∧ n < 2 ^ 63

instance (n : Int) : Decidable (InI64 n) := inferInstanceAs (Decidable (_ ∧ _))

def wrapI64 (n : Int) : Int := Int.bmod n (2 ^ 64)

/-- The result of an `i64` operation whose exact value is `n`: out of range it traps when overflow
checks are compiled in, and wraps when they are not. -/
def i64Result (overflowChecks : Bool) (n : Int) : Option Int :=
  if InI64 n then some n else if overflowChecks then none else some (wrapI64 n)

theorem i64Result_of_inI64 {n : Int} (fits : InI64 n) (checks : Bool) : i64Result checks n = some n := by
  rw [i64Result, if_pos fits]

theorem i64Result_checked {n : Int} (overflow : ¬ InI64 n) : i64Result true n = none := by
  rw [i64Result, if_neg overflow, if_pos rfl]

def u32Result (overflowChecks : Bool) (n : Nat) : Option UInt32 :=
  if n < UInt32.size then some (UInt32.ofNat n) else if overflowChecks then none else some (UInt32.ofNat n)

def natToFloat (n : Nat) : Float := .ofModel (.ofNat n)

def intToFloat (n : Int) : Float := .ofModel (.ofInt n)

open Float.Model Float.Model.UnpackedFloat

/-- The integer a binary64 reads an integer as, which is that integer up to `2 ^ 53`. -/
def asDouble (n : Int) : Int :=
  match (intToFloat n).toModel.unpack with
  | .finite s m e _ => s.apply (if 0 ≤ e then m * 2 ^ e.toNat else m / 2 ^ (-e).toNat)
  | _ => 0

/-! ### Binary64 with its bits -/

instance decidableValid (spec : Format) (b : BitVec spec.numBits) : Decidable (spec.Valid b) :=
  decidable_of_iff (unpackExponent b = (-1#_) → unpackMantissa b ≠ 0#_ → b = packedNaN spec)
    ⟨Format.Valid.mk, Format.Valid.eq_packedNaN⟩

/-- A binary64 with the bits it has. `Float` has one NaN and no sign of it, by which the total order goes. -/
structure F64 where
  bits : UInt64
  deriving DecidableEq

namespace F64

/-- The number; every NaN is the one there is. -/
def toFloat (x : F64) : Float :=
  if valid : Format.binary64.Valid x.bits.toBitVec then .ofModel ⟨x.bits, valid⟩ else .ofModel (.pack .notANumber)

def ofFloat (x : Float) : F64 := ⟨x.toBits⟩

def isFinite (x : F64) : Bool := x.toFloat.isFinite

instance : LT F64 := ⟨fun x y => x.toFloat < y.toFloat⟩

instance (x y : F64) : Decidable (x < y) := inferInstanceAs (Decidable (x.toFloat < y.toFloat))

instance : OfScientific F64 := ⟨fun m sign e => .ofFloat (OfScientific.ofScientific m sign e)⟩

instance : Neg F64 := ⟨fun x => ⟨x.bits ^^^ 0x8000000000000000⟩⟩

@[simp] theorem toFloat_ofFloat (x : Float) : (ofFloat x).toFloat = x := dif_pos x.toModel.valid

theorem toBits_toFloat {x : F64} (finite : x.isFinite = true) : x.toFloat.toBits = x.bits := by
  by_cases valid : Format.binary64.Valid x.bits.toBitVec
  · rw [toFloat, dif_pos valid]
    rfl
  · rw [isFinite, toFloat, dif_neg valid] at finite
    exact absurd finite (by decide)

end F64

structure F32 where
  bits : UInt32
  deriving DecidableEq

def F32.toF64 (x : F32) : F64 :=
  -- a NaN keeps its sign and its payload
  if x.bits &&& 0x7fffffff > 0x7f800000 then
    let bits := x.bits.toUInt64
    ⟨((bits >>> 31) <<< 63) ||| (0x7ff8000000000000 : UInt64) ||| ((bits &&& 0x7fffff) <<< 29)⟩
  else .ofFloat (Float32.ofBits x.bits).toFloat

/-- The integer whose order is the total order of binary64: the bits of a negative number are
flipped below the sign. -/
def totalOrderKey (x : F64) : Int64 :=
  let bits := x.bits.toInt64
  bits ^^^ ((bits >>> 63).toUInt64 >>> 1).toInt64

end Numeric
