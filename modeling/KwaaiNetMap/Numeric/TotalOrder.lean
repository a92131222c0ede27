import KwaaiNetMap.Numeric.Machine
import Mathlib

/-!
A finite number has an integer `weight`, its bits below the sign counted from zero. Finite numbers compare as
their weights do (`lt_iff_weight`), and `totalOrderKey` keeps that order (`totalOrderKey_lt`).
-/

namespace Numeric
open Float.Model Float.Model.UnpackedFloat

/-! ### Weights and keys -/

def magnitude (x : Float) : Nat := x.toBits.toNat % 2 ^ 63

/-- The place of a finite number among the others, zero at zero. -/
def weight (x : Float) : Int := if x.toBits.toNat < 2 ^ 63 then magnitude x else -(magnitude x : Int)

theorem flip_below_sign (b : BitVec 64) (signed : 2 ^ 63 ≤ b.toNat) :
    (b ^^^ 0x7fffffffffffffff#64).toInt = -1 - ((b.toNat % 2 ^ 63 : Nat) : Int) := by
  have low := b.isLt
  have split : b = 1#1 ++ BitVec.ofNat 63 b.toNat := by
    apply BitVec.eq_of_toNat_eq
    rw [BitVec.toNat_append, ← Nat.shiftLeft_add_eq_or_of_lt (BitVec.isLt _)]
    simp only [BitVec.toNat_ofNat, Nat.shiftLeft_eq]
    omega
  have mask : 0x7fffffffffffffff#64 = 0#1 ++ BitVec.allOnes 63 := by decide
  have flipped : b ^^^ 0x7fffffffffffffff#64 = 1#1 ++ ~~~ BitVec.ofNat 63 b.toNat := by
    conv_lhs => rw [split, mask]
    rw [BitVec.xor_append, BitVec.xor_allOnes]
    rfl
  have size : (1#1 ++ ~~~ BitVec.ofNat 63 b.toNat).toNat = 2 ^ 63 + (2 ^ 63 - 1 - b.toNat % 2 ^ 63) := by
    rw [BitVec.toNat_append, ← Nat.shiftLeft_add_eq_or_of_lt (BitVec.isLt _), BitVec.toNat_not]
    simp only [BitVec.toNat_ofNat, Nat.shiftLeft_eq]
    omega
  rw [flipped, BitVec.toInt_eq_toNat_cond, size]
  omega

theorem totalOrderKey_toInt (x : F64) :
    (totalOrderKey x).toInt =
      if x.bits.toNat < 2 ^ 63 then ((x.bits.toNat % 2 ^ 63 : Nat) : Int)
      else -1 - ((x.bits.toNat % 2 ^ 63 : Nat) : Int) := by
  have bound : x.bits.toNat < 2 ^ 64 := x.bits.toBitVec.isLt
  have key : (totalOrderKey x).toBitVec =
      x.bits.toBitVec ^^^ ((x.bits.toBitVec.sshiftRight 63) >>> 1) := rfl
  rw [← Int64.toInt_toBitVec, key]
  split
  · rename_i unsigned
    have top : x.bits.toBitVec.msb = false := BitVec.msb_eq_false_iff_two_mul_lt.mpr (by
      change 2 * x.bits.toNat < _
      omega)
    have cleared : x.bits.toBitVec >>> 63 = 0#64 := by
      apply BitVec.eq_of_toNat_eq
      rw [BitVec.toNat_ushiftRight, Nat.shiftRight_eq_div_pow]
      exact Nat.div_eq_of_lt unsigned
    rw [BitVec.sshiftRight_eq_of_msb_false top, cleared, BitVec.zero_ushiftRight, BitVec.xor_zero,
      BitVec.toInt_eq_toNat_of_msb top, Nat.mod_eq_of_lt unsigned]
    rfl
  · rename_i signed
    have top : x.bits.toBitVec.msb = true := BitVec.msb_eq_true_iff_two_mul_ge.mpr (by
      change 2 * x.bits.toNat ≥ _
      omega)
    have cleared : ~~~ x.bits.toBitVec >>> 63 = 0#64 := by
      apply BitVec.eq_of_toNat_eq
      rw [BitVec.toNat_ushiftRight, Nat.shiftRight_eq_div_pow, BitVec.toNat_not]
      change (2 ^ 64 - 1 - x.bits.toNat) / 2 ^ 63 = 0
      omega
    rw [BitVec.sshiftRight_eq_of_msb_true top, cleared]
    exact flip_below_sign x.bits.toBitVec (Nat.not_lt.mp signed)

theorem totalOrderKey_lt {x y : F64} (fx : x.isFinite = true) (fy : y.isFinite = true)
    (lighter : weight x.toFloat < weight y.toFloat) : totalOrderKey x < totalOrderKey y := by
  rw [Int64.lt_iff_toInt_lt, totalOrderKey_toInt, totalOrderKey_toInt]
  unfold weight magnitude at lighter
  rw [F64.toBits_toFloat fx, F64.toBits_toFloat fy] at lighter
  split_ifs at * <;> omega

/-! ### Comparison -/

structure Canonical (m : Nat) (e : Int) : Prop where
  low : -1074 ≤ e
  high : m < 2 ^ 53
  full : e = -1074 ∨ 2 ^ 52 ≤ m

def weightOf : UnpackedFloat → Int
  | .finite s m e _ => s.apply ((e + 1074) * 2 ^ 52 + m)
  | _ => 0

def IsCanonical : UnpackedFloat → Prop
  | .zero _ => True
  | .finite _ m e _ => Canonical m e
  | _ => False

theorem unpackMantissa_toNat (b : BitVec 64) : (@unpackMantissa Format.binary64 b).toNat = b.toNat % 2 ^ 52 := by
  simp [unpackMantissa]

theorem unpackExponent_toNat (b : BitVec 64) :
    (@unpackExponent Format.binary64 b).toNat = b.toNat / 2 ^ 52 % 2 ^ 11 := by
  simp [unpackExponent, Nat.shiftRight_eq_div_pow]

theorem unpackSign_toNat (b : BitVec 64) : (@unpackSign Format.binary64 b).toNat = b.toNat / 2 ^ 63 := by
  have bound := b.isLt
  simp [unpackSign, Nat.shiftRight_eq_div_pow]
  omega

theorem toNat_implicit_one (m : BitVec 52) : (1#1 ++ m).toNat = 2 ^ 52 + m.toNat := by
  rw [BitVec.toNat_append, ← Nat.shiftLeft_add_eq_or_of_lt m.isLt]
  rfl

theorem sign_apply_unpacked (b : BitVec 64) (n : Nat) :
    (Sign.ofBitVec (@unpackSign Format.binary64 b)).apply n = if b.toNat < 2 ^ 63 then (n : Int) else -(n : Int) := by
  have bound := b.isLt
  have sign := unpackSign_toNat b
  unfold Sign.ofBitVec
  by_cases unsigned : b.toNat < 2 ^ 63
  · have zero : @unpackSign Format.binary64 b = 0#1 := by
      apply BitVec.eq_of_toNat_eq
      rw [sign]
      exact Nat.div_eq_of_lt unsigned
    rw [if_pos zero, if_pos unsigned]
    rfl
  · have one : ¬ @unpackSign Format.binary64 b = 0#1 := by
      intro zero
      rw [zero] at sign
      change 0 = _ at sign
      omega
    rw [if_neg one, if_neg unsigned]
    rfl

theorem unpack_finite {x : Float} (finite : x.isFinite = true) :
    weightOf x.toModel.unpack = weight x ∧ IsCanonical x.toModel.unpack := by
  let b : BitVec 64 := x.toBits.toBitVec
  have bound : b.toNat < 2 ^ 64 := b.isLt
  have mantissa := unpackMantissa_toNat b
  have exponent := unpackExponent_toNat b
  have same : weight x =
      if b.toNat < 2 ^ 63 then ((b.toNat % 2 ^ 63 : Nat) : Int) else -((b.toNat % 2 ^ 63 : Nat) : Int) := rfl
  have bias : ((Format.binary64.exponentBias : Nat) : Int) = 1023 := rfl
  change (UnpackedFloat.unpack Format.binary64 b).isFinite = true at finite
  change weightOf (UnpackedFloat.unpack Format.binary64 b) = _ ∧ IsCanonical (UnpackedFloat.unpack Format.binary64 b)
  rw [same, ← sign_apply_unpacked]
  unfold UnpackedFloat.unpack at finite ⊢
  dsimp only at finite ⊢
  split at finite
  · split at finite <;> cases finite
  · rename_i notOnes
    rw [if_neg notOnes]
    split
    · rename_i zeroes
      have none : b.toNat / 2 ^ 52 % 2 ^ 11 = 0 := by
        rw [← exponent, zeroes]
        rfl
      split
      · rename_i empty
        have nothing : b.toNat % 2 ^ 52 = 0 := by
          rw [← mantissa, empty]
          rfl
        refine ⟨?_, trivial⟩
        rw [show b.toNat % 2 ^ 63 = 0 by omega]
        cases Sign.ofBitVec (@unpackSign Format.binary64 b) <;> rfl
      · rw [weightOf, IsCanonical, exponent, mantissa, none, bias]
        refine ⟨?_, by omega, by omega, by omega⟩
        congr 1
        omega
    · rename_i notZeroes
      have some : b.toNat / 2 ^ 52 % 2 ^ 11 ≠ 0 := by
        intro none
        rw [← exponent] at none
        exact notZeroes (BitVec.eq_of_toNat_eq none)
      rw [weightOf, IsCanonical, exponent, toNat_implicit_one, mantissa, bias]
      refine ⟨?_, by omega, by omega, by omega⟩
      congr 1
      omega

theorem Canonical.lex {m m' : Nat} {e e' : Int} (first : Canonical m e) (second : Canonical m' e') :
    ((compare e e').then (compare m m') = .lt ↔ (e + 1074) * 2 ^ 52 + m < (e' + 1074) * 2 ^ 52 + m') ∧
    ((compare e e').then (compare m m') = .gt ↔ (e' + 1074) * 2 ^ 52 + m' < (e + 1074) * 2 ^ 52 + m) := by
  obtain ⟨low, high, full⟩ := first
  obtain ⟨low', high', full'⟩ := second
  rcases lt_trichotomy e e' with below | rfl | above
  · rw [compare_lt_iff_lt.mpr below]
    constructor <;> simp <;> omega
  · rw [compare_eq_iff_eq.mpr rfl, Ordering.eq_then, compare_lt_iff_lt, compare_gt_iff_gt]
    constructor <;> omega
  · rw [compare_gt_iff_gt.mpr above]
    constructor <;> simp <;> omega

theorem compare_eq_lt {u v : UnpackedFloat} (hu : IsCanonical u) (hv : IsCanonical v) :
    u.compare v = some .lt ↔ weightOf u < weightOf v := by
  cases u with
  | infinity _ => cases hu
  | notANumber => cases hu
  | zero s =>
    cases v with
    | infinity _ => cases hv
    | notANumber => cases hv
    | zero t => simp [UnpackedFloat.compare, weightOf]
    | finite t m' e' pos' =>
      have low := hv.low
      cases t <;> simp [UnpackedFloat.compare, weightOf, Sign.apply] <;> omega
  | finite s m e pos =>
    have low := hu.low
    cases v with
    | infinity _ => cases hv
    | notANumber => cases hv
    | zero t => cases s <;> simp [UnpackedFloat.compare, weightOf, Sign.apply] <;> omega
    | finite t m' e' pos' =>
      have low' := hv.low
      obtain ⟨below, above⟩ := Canonical.lex hu hv
      cases s <;> cases t
      · simp [UnpackedFloat.compare, weightOf, Sign.apply, above]
        omega
      · simp [UnpackedFloat.compare, weightOf, Sign.apply]
        omega
      · simp [UnpackedFloat.compare, weightOf, Sign.apply]
        omega
      · simp [UnpackedFloat.compare, weightOf, Sign.apply, below]

theorem lt_iff_weight {x y : Float} (fx : x.isFinite = true) (fy : y.isFinite = true) :
    x < y ↔ weight x < weight y := by
  obtain ⟨wx, cx⟩ := unpack_finite fx
  obtain ⟨wy, cy⟩ := unpack_finite fy
  rw [← wx, ← wy, ← compare_eq_lt cx cy]
  change decide (x.toModel < y.toModel) = true ↔ _
  rw [decide_eq_true_eq]
  change (x.toModel.unpack.compare y.toModel.unpack == some .lt) = true ↔ _
  rw [beq_iff_eq]

theorem F64.lt_iff_weight {x y : F64} (fx : x.isFinite = true) (fy : y.isFinite = true) :
    x < y ↔ weight x.toFloat < weight y.toFloat := Numeric.lt_iff_weight fx fy

end Numeric
