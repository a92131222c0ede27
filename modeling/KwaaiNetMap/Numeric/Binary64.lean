import KwaaiNetMap.Numeric.Machine
import Mathlib

/-!
A share of counts computed in binary64, as a percentage, is exactly 100 only when the counts are equal
(`percent_eq_hundred_iff`). Numbers are followed in canonical form, a mantissa of 53 bits and an exponent;
rounding is bounded through the weight of one unit in the last place (`rounded_le`).
-/

namespace Numeric
open Float.Model Float.Model.UnpackedFloat

/-! ### Packing -/

structure Normal (m : Nat) (e : Int) : Prop where
  low : 2 ^ 52 ≤ m
  high : m < 2 ^ 53
  above : -1074 ≤ e
  below : e ≤ 970

theorem Normal.log2 {m : Nat} {e : Int} (normal : Normal m e) : m.log2 = 52 :=
  (Nat.log2_eq_iff (by have := normal.low; omega)).mpr ⟨normal.low, normal.high⟩

theorem eq_of_toModel {x y : Float} (same : x.toModel = y.toModel) : x = y := by
  cases x
  cases y
  exact congrArg Float.ofModel same

theorem toModel_div (x y : Float) :
    (x / y).toModel = .pack (UnpackedFloat.div Format.binary64 x.toModel.unpack y.toModel.unpack) := rfl

theorem toModel_mul (x y : Float) :
    (x * y).toModel = .pack (UnpackedFloat.mul Format.binary64 x.toModel.unpack y.toModel.unpack) := rfl

theorem unpackSign_packComponents {s : Format} {sign : Sign} {exponent : BitVec s.exponentBits}
    {mantissa : BitVec s.mantissaBitsWithoutImplicit} :
    unpackSign (packComponents s sign exponent mantissa) = sign.toBitVec := by
  ext i bit
  obtain rfl : i = 0 := by omega
  simp [unpackSign, packComponents, BitVec.getLsbD_eq_getElem, BitVec.getLsbD_append, BitVec.getElem_append]

theorem unpack_pack {m : Nat} {e : Int} (normal : Normal m e) (pos : 0 < m) :
    (Float.Model.pack (.finite .positive m e pos)).unpack = .finite .positive m e pos := by
  have log := normal.log2
  obtain ⟨low, high, above, below⟩ := normal
  have field : (BitVec.ofNat 11 (e + 1075).toNat).toNat = (e + 1075).toNat := by
    rw [BitVec.toNat_ofNat, Nat.mod_eq_of_lt (by omega)]
  have notZero : BitVec.ofNat 11 (e + 1075).toNat ≠ 0#11 := by
    intro same
    have := congrArg BitVec.toNat same
    rw [field] at this
    simp at this
    omega
  have notOnes : BitVec.ofNat 11 (e + 1075).toNat ≠ -1#11 := by
    intro same
    have := congrArg BitVec.toNat same
    rw [field] at this
    simp at this
    omega
  have packed : UnpackedFloat.pack Format.binary64 (.finite .positive m e pos) =
      packComponents Format.binary64 .positive (BitVec.ofNat 11 (e + 1075).toNat) (BitVec.ofNat 52 m) := by
    have biased : e + (1023 : Int) + (52 : Int) = e + 1075 := by ring
    unfold UnpackedFloat.pack
    simp only [Format.exponentBias, Format.mantissaBits, log]
    norm_num [biased]
    intro overflow
    omega
  rw [Float.Model.unpack, Float.Model.pack]
  dsimp only
  rw [packed]
  unfold UnpackedFloat.unpack
  simp only [unpackExponent_packComponents, unpackMantissa_packComponents, unpackSign_packComponents]
  have mantissa : (1#1 ++ BitVec.ofNat 52 m).toNat = m := by
    rw [BitVec.toNat_append, ← Nat.shiftLeft_add_eq_or_of_lt (BitVec.isLt _)]
    simp only [BitVec.toNat_ofNat, Nat.shiftLeft_eq]
    omega
  have exponent : ((BitVec.ofNat 11 (e + 1075).toNat).toNat : Int) -
      ((Format.binary64.exponentBias : Int) + ((52 : Nat) : Int)) = e := by
    rw [field, show Format.binary64.exponentBias = 1023 from rfl]
    omega
  rw [if_neg notOnes, if_neg notZero]
  simp only [UnpackedFloat.finite.injEq]
  exact ⟨rfl, mantissa, exponent⟩

/-! ### Rounding -/

/-- Lower bounds on the value behind an extended mantissa, one unit of which weighs `w`. -/
def Holds (value w : Nat) (em : ExtendedMantissa) : Prop :=
  em.mantissa * w ≤ value ∧ (em.roundBit = true → (2 * em.mantissa + 1) * w ≤ 2 * value)

theorem holds_shiftRightOne {value w : Nat} {em : ExtendedMantissa} (holds : Holds value w em) :
    Holds value (2 * w) em.shiftRightOne := by
  obtain ⟨bound, -⟩ := holds
  have halves := Nat.div_add_mod em.mantissa 2
  constructor
  · change em.mantissa / 2 * (2 * w) ≤ value
    calc
      em.mantissa / 2 * (2 * w) = (2 * (em.mantissa / 2)) * w := by ring
      _ ≤ em.mantissa * w := Nat.mul_le_mul_right w (by omega)
      _ ≤ value := bound
  · intro odd
    have rest : em.mantissa % 2 = 1 := by
      have : em.mantissa % 2 ≠ 0 := by simpa [ExtendedMantissa.shiftRightOne] using odd
      omega
    change (2 * (em.mantissa / 2) + 1) * (2 * w) ≤ 2 * value
    calc
      (2 * (em.mantissa / 2) + 1) * (2 * w) = 2 * (em.mantissa * w) := by
        rw [show 2 * (em.mantissa / 2) + 1 = em.mantissa by omega]; ring
      _ ≤ 2 * value := Nat.mul_le_mul_left 2 bound

theorem holds_shift {value w : Nat} {em : ExtendedMantissa} (holds : Holds value w em) (k : Nat) :
    Holds value (2 ^ k * w) (em >>> k) := by
  induction k with
  | zero =>
    rw [Nat.pow_zero, Nat.one_mul]
    exact holds
  | succ k ih =>
    have next := holds_shiftRightOne ih
    rw [show 2 * (2 ^ k * w) = 2 ^ (k + 1) * w by ring] at next
    exact next

theorem mantissa_shift (em : ExtendedMantissa) (k : Nat) : (em >>> k).mantissa = em.mantissa / 2 ^ k := by
  induction k with
  | zero => exact (Nat.div_one _).symm
  | succ k ih =>
    change (em >>> k).mantissa / 2 = _
    rw [ih, Nat.div_div_eq_div_mul, Nat.pow_succ]

theorem roundedMantissa_cases (em : ExtendedMantissa) :
    em.roundedMantissa = em.mantissa ∨ (em.roundedMantissa = em.mantissa + 1 ∧ em.roundBit = true) := by
  obtain ⟨mantissa, roundBit, stickyBit⟩ := em
  unfold ExtendedMantissa.roundedMantissa
  cases roundBit <;> cases stickyBit <;>
    simp [ExtendedMantissa.accuracy, Accuracy.roundToNearestEven]
  omega

theorem rounded_le {value w n : Nat} {em : ExtendedMantissa} (holds : Holds value w em)
    (below : 2 * value < (2 * n + 1) * w) : em.roundedMantissa ≤ n := by
  obtain ⟨bound, half⟩ := holds
  rcases roundedMantissa_cases em with same | ⟨up, bit⟩
  · rw [same]
    by_contra above
    have := Nat.mul_le_mul_right w (show n + 1 ≤ em.mantissa by omega)
    nlinarith
  · rw [up]
    by_contra above
    have := Nat.mul_le_mul_right w (show 2 * n + 1 ≤ 2 * em.mantissa + 1 by omega)
    have := half bit
    omega

/-! ### Rounding to a canonical form -/

theorem targetExponent_normal {m : Nat} {e : Int} (above : -1074 ≤ (m.log2 : Int) - 52 + e) :
    Format.binary64.targetExponent (totalExponent m e) = (m.log2 : Int) - 52 + e := by
  rw [Format.targetExponent, totalExponent, show Format.binary64.minExponent = -1074 from rfl,
    show Format.binary64.mantissaBits = 53 from rfl]
  omega

theorem shiftToTargetExponent_normal {m : Nat} {e : Int} (accuracy : Accuracy)
    (above : -1074 ≤ (m.log2 : Int) - 52 + e) :
    shiftToTargetExponent Format.binary64 m e accuracy =
      (ExtendedMantissa.ofMantissaAndAccuracy m accuracy >>> (m.log2 - 52), e + ((m.log2 - 52 : Nat) : Int)) := by
  unfold shiftToTargetExponent shiftToExponent
  have amount : ((m.log2 : Int) - 52 + e - e).toNat = m.log2 - 52 := by omega
  rw [targetExponent_normal above]
  dsimp only
  rw [amount]

theorem mantissa_ofMantissaAndAccuracy (m : Nat) (accuracy : Accuracy) :
    (ExtendedMantissa.ofMantissaAndAccuracy m accuracy).mantissa = m := by
  cases accuracy with
  | exact => rfl
  | inexact side => cases side <;> rfl

theorem leading_bits {m : Nat} (wide : 2 ^ 52 ≤ m) :
    2 ^ 52 ≤ m / 2 ^ (m.log2 - 52) ∧ m / 2 ^ (m.log2 - 52) < 2 ^ 53 := by
  have positive : m ≠ 0 := by omega
  have log : 52 ≤ m.log2 := (Nat.le_log2 positive).mpr wide
  have low : 2 ^ 52 * 2 ^ (m.log2 - 52) ≤ m := by
    rw [← Nat.pow_add, show 52 + (m.log2 - 52) = m.log2 by omega]
    exact Nat.log2_self_le positive
  have high : m < 2 ^ 53 * 2 ^ (m.log2 - 52) := by
    rw [← Nat.pow_add, show 53 + (m.log2 - 52) = m.log2 + 1 by omega]
    exact Nat.lt_log2_self
  exact ⟨(Nat.le_div_iff_mul_le (Nat.two_pow_pos _)).mpr low, (Nat.div_lt_iff_lt_mul (Nat.two_pow_pos _)).mpr high⟩

/-- A mantissa of at least 53 bits rounds to a canonical one: at the exponent its bits call for, or one
above it with the smallest mantissa, where rounding carried into a new bit. -/
theorem roundWithAccuracy_normal {m : Nat} {e : Int} (accuracy : Accuracy) (wide : 2 ^ 52 ≤ m) (above : -1074 ≤ e) :
    ∃ r f pos, roundWithAccuracy Format.binary64 .positive m e accuracy = .finite .positive r f pos ∧
      2 ^ 52 ≤ r ∧ r < 2 ^ 53 ∧
      ((r = (ExtendedMantissa.ofMantissaAndAccuracy m accuracy >>> (m.log2 - 52)).roundedMantissa ∧
          f = e + ((m.log2 - 52 : Nat) : Int)) ∨
        (r = 2 ^ 52 ∧ f = e + ((m.log2 - 52 : Nat) : Int) + 1 ∧
          (ExtendedMantissa.ofMantissaAndAccuracy m accuracy >>> (m.log2 - 52)).roundedMantissa = 2 ^ 53)) := by
  have log : 52 ≤ m.log2 := (Nat.le_log2 (by omega)).mpr wide
  have first := shiftToTargetExponent_normal (m := m) (e := e) accuracy (by omega)
  obtain ⟨low, high⟩ := leading_bits wide
  have cases := roundedMantissa_cases (ExtendedMantissa.ofMantissaAndAccuracy m accuracy >>> (m.log2 - 52))
  rw [mantissa_shift, mantissa_ofMantissaAndAccuracy] at cases
  unfold roundWithAccuracy
  rw [first]
  dsimp only
  generalize (ExtendedMantissa.ofMantissaAndAccuracy m accuracy >>> (m.log2 - 52)).roundedMantissa = r at cases ⊢
  have bounds : 2 ^ 52 ≤ r ∧ r ≤ 2 ^ 53 := by omega
  rcases Nat.lt_or_ge r (2 ^ 53) with fits | carried
  · have log2 : r.log2 = 52 := (Nat.log2_eq_iff (by omega)).mpr ⟨bounds.1, fits⟩
    have second := shiftToTargetExponent_normal (m := r) (e := e + ((m.log2 - 52 : Nat) : Int)) .exact (by omega)
    rw [log2] at second
    rw [second]
    have kept : (ExtendedMantissa.ofMantissaAndAccuracy r .exact >>> (52 - 52)).mantissa = r := by
      rw [mantissa_shift, mantissa_ofMantissaAndAccuracy]
      exact Nat.div_one r
    refine ⟨r, e + ((m.log2 - 52 : Nat) : Int), by omega, ?_, bounds.1, fits, Or.inl ⟨rfl, rfl⟩⟩
    dsimp only
    rw [dif_neg (by rw [kept]; omega)]
    simp only [UnpackedFloat.finite.injEq]
    exact ⟨trivial, kept, by omega⟩
  · obtain rfl : r = 2 ^ 53 := by omega
    have log2 : (2 ^ 53).log2 = 53 := Nat.log2_two_pow
    have second := shiftToTargetExponent_normal (m := 2 ^ 53) (e := e + ((m.log2 - 52 : Nat) : Int)) .exact
      (by omega)
    rw [log2] at second
    rw [second]
    have kept : (ExtendedMantissa.ofMantissaAndAccuracy (2 ^ 53) .exact >>> (53 - 52)).mantissa = 2 ^ 52 := by
      rw [mantissa_shift, mantissa_ofMantissaAndAccuracy]
      norm_num
    refine ⟨2 ^ 52, e + ((m.log2 - 52 : Nat) : Int) + 1, by decide, ?_, by decide, by decide, Or.inr ⟨rfl, rfl, rfl⟩⟩
    dsimp only
    rw [dif_neg (by rw [kept]; decide)]
    simp only [UnpackedFloat.finite.injEq]
    exact ⟨trivial, kept, by omega⟩

theorem roundWithAccuracy_canonical {m : Nat} {e : Int} (low : 2 ^ 52 ≤ m) (high : m < 2 ^ 53) (above : -1074 ≤ e)
    (pos : 0 < m) : roundWithAccuracy Format.binary64 .positive m e .exact = .finite .positive m e pos := by
  have log : m.log2 = 52 := (Nat.log2_eq_iff (by omega)).mpr ⟨low, high⟩
  have shifted := shiftToTargetExponent_normal (m := m) (e := e) .exact (by omega)
  rw [log] at shifted
  have rounded : (ExtendedMantissa.ofMantissaAndAccuracy m .exact >>> (52 - 52)).roundedMantissa = m := rfl
  have kept : (ExtendedMantissa.ofMantissaAndAccuracy m .exact >>> (52 - 52)).mantissa = m := rfl
  have exponent : e + ((52 - 52 : Nat) : Int) = e := by omega
  unfold roundWithAccuracy
  rw [shifted]
  dsimp only
  rw [rounded, exponent, shifted]
  dsimp only
  rw [dif_neg (by rw [kept]; omega)]
  simp only [UnpackedFloat.finite.injEq]
  exact ⟨trivial, kept, exponent⟩

theorem count_canonical {n : Nat} (positive : 0 < n) (bounded : n < 2 ^ 53) :
    2 ^ 52 ≤ n * 2 ^ (52 - n.log2) ∧ n * 2 ^ (52 - n.log2) < 2 ^ 53 := by
  have log : n.log2 < 53 := (Nat.log2_lt (by omega)).mpr bounded
  constructor
  · calc
      2 ^ 52 = 2 ^ n.log2 * 2 ^ (52 - n.log2) := by rw [← Nat.pow_add, show n.log2 + (52 - n.log2) = 52 by omega]
      _ ≤ n * 2 ^ (52 - n.log2) := Nat.mul_le_mul_right _ (Nat.log2_self_le (by omega))
  · calc
      n * 2 ^ (52 - n.log2) < 2 ^ (n.log2 + 1) * 2 ^ (52 - n.log2) :=
        Nat.mul_lt_mul_of_pos_right Nat.lt_log2_self (Nat.two_pow_pos _)
      _ = 2 ^ 53 := by rw [← Nat.pow_add, show n.log2 + 1 + (52 - n.log2) = 53 by omega]

theorem unpack_natToFloat {n : Nat} (positive : 0 < n) (bounded : n < 2 ^ 53) :
    ∃ pos, (natToFloat n).toModel.unpack =
      .finite .positive (n * 2 ^ (52 - n.log2)) ((n.log2 : Int) - 52) pos := by
  have log : n.log2 < 53 := (Nat.log2_lt (by omega)).mpr bounded
  obtain ⟨low, high⟩ := count_canonical positive bounded
  have rounded : UnpackedFloat.round Format.binary64 .positive n 0 =
      .finite .positive (n * 2 ^ (52 - n.log2)) ((n.log2 : Int) - 52) (by omega) := by
    have amount : (0 - ((n.log2 : Int) - 52 + 0)).toNat = 52 - n.log2 := by omega
    unfold UnpackedFloat.round decreaseExponent
    rw [targetExponent_normal (by omega)]
    dsimp only
    rw [amount, Nat.shiftLeft_eq, show (0 : Int) - ((52 - n.log2 : Nat) : Int) = (n.log2 : Int) - 52 by omega]
    exact roundWithAccuracy_canonical low high (by omega) (by omega)
  refine ⟨by omega, ?_⟩
  have converted : (natToFloat n).toModel =
      Float.Model.pack (.finite .positive (n * 2 ^ (52 - n.log2)) ((n.log2 : Int) - 52) (by omega)) := by
    change Float.Model.pack (UnpackedFloat.normalize Format.binary64 (n : Int) 0 .positive) = _
    unfold UnpackedFloat.normalize
    rw [Int.compare_eq_gt.mpr (by omega)]
    dsimp only
    rw [Int.toNat_natCast, rounded]
  rw [converted]
  exact unpack_pack ⟨low, high, by omega, by omega⟩ _

/-! ### Quotients -/

theorem holds_fraction (value den : Nat) :
    Holds value den
      (ExtendedMantissa.ofMantissaAndAccuracy (value / den) (accuracyOfFraction (value % den) den)) := by
  have parts := Nat.div_add_mod value den
  rw [Nat.mul_comm] at parts
  constructor
  · rw [mantissa_ofMantissaAndAccuracy]
    omega
  · intro bit
    have half : den ≤ 2 * (value % den) := by
      unfold accuracyOfFraction at bit
      split at bit
      · cases bit
      · by_contra below
        rw [Nat.compare_eq_lt.mpr (by omega)] at bit
        cases bit
    rw [mantissa_ofMantissaAndAccuracy]
    calc
      (2 * (value / den) + 1) * den = 2 * (value / den * den) + den := by ring
      _ ≤ 2 * value := by omega

theorem divCore_normal {m₁ m₂ : Nat} {e₁ e₂ : Int} (first : m₁.log2 = 52) (second : m₂.log2 = 52)
    (above : -1000 ≤ e₁ - e₂) :
    divCore Format.binary64 m₁ e₁ m₂ e₂ =
      (m₁ * 2 ^ 53 / m₂, e₁ - e₂ - 53, accuracyOfFraction (m₁ * 2 ^ 53 % m₂) m₂) := by
  have target : min (e₁ - e₂) (Format.binary64.targetExponent (totalExponent m₁ e₁ - totalExponent m₂ e₂)) =
      e₁ - e₂ - 53 := by
    rw [Format.targetExponent, totalExponent, totalExponent, first, second,
      show Format.binary64.minExponent = -1074 from rfl, show Format.binary64.mantissaBits = 53 from rfl]
    omega
  unfold divCore
  dsimp only
  rw [target, show (e₁ - e₂ - (e₁ - e₂ - 53)).toNat = 53 by omega, Nat.shiftLeft_eq]

theorem quotient_wide {m₁ m₂ : Nat} (low : 2 ^ 52 ≤ m₁) (high : m₂ < 2 ^ 53) (positive : 0 < m₂) :
    2 ^ 52 ≤ m₁ * 2 ^ 53 / m₂ := by
  rw [Nat.le_div_iff_mul_le positive]
  omega

theorem quotient_log2 {m₁ m₂ k : Nat} (high : m₁ < 2 ^ 53) (low : 2 ^ 52 ≤ m₂) (below : m₁ < 2 ^ k * m₂) :
    (m₁ * 2 ^ 53 / m₂).log2 - 52 ≤ k := by
  cases k with
  | zero =>
    have : (m₁ * 2 ^ 53 / m₂).log2 < 53 := by
      rcases Nat.eq_zero_or_pos (m₁ * 2 ^ 53 / m₂) with zero | filled
      · rw [zero]; decide
      · rw [Nat.log2_lt (by omega), Nat.div_lt_iff_lt_mul (by omega)]
        omega
    omega
  | succ k =>
    have : (m₁ * 2 ^ 53 / m₂).log2 < 54 := by
      rcases Nat.eq_zero_or_pos (m₁ * 2 ^ 53 / m₂) with zero | filled
      · rw [zero]; decide
      · rw [Nat.log2_lt (by omega), Nat.div_lt_iff_lt_mul (by omega)]
        omega
    omega

theorem div_below_one {m₁ m₂ k : Nat} {e : Int} (low₁ : 2 ^ 52 ≤ m₁) (high₁ : m₁ < 2 ^ 53) (low₂ : 2 ^ 52 ≤ m₂)
    (high₂ : m₂ < 2 ^ 53) (shift : k ≤ 900) (below : 2 ^ 54 * m₁ < (2 ^ 54 - 1) * (2 ^ k * m₂))
    (pos₁ : 0 < m₁) (pos₂ : 0 < m₂) :
    ∃ r f pos, UnpackedFloat.div Format.binary64 (.finite .positive m₁ (e - k) pos₁) (.finite .positive m₂ e pos₂) =
        .finite .positive r f pos ∧ Normal r f ∧ -1000 ≤ f ∧ f ≤ -53 := by
  have wide := quotient_wide low₁ high₂ pos₂
  have bits : (m₁ * 2 ^ 53 / m₂).log2 - 52 ≤ k := quotient_log2 high₁ low₂ (by omega)
  obtain ⟨r, f, pos, rounded, low, high, place⟩ := roundWithAccuracy_normal
    (e := e - k - e - 53) (accuracyOfFraction (m₁ * 2 ^ 53 % m₂) m₂) wide (by omega)
  refine ⟨r, f, pos, ?_, ?_⟩
  · unfold UnpackedFloat.div
    dsimp only
    rw [divCore_normal ((Nat.log2_eq_iff (by omega)).mpr ⟨low₁, high₁⟩)
      ((Nat.log2_eq_iff (by omega)).mpr ⟨low₂, high₂⟩) (by omega)]
    exact rounded
  · suffices bound : f ≤ -53 from ⟨⟨low, high, by omega, by omega⟩, by omega, bound⟩
    rcases place with ⟨-, place⟩ | ⟨-, place, carried⟩
    · omega
    · by_contra beyond
      -- a carry past the top unit of the range below 1 would need more than the quotient is
      obtain full : (m₁ * 2 ^ 53 / m₂).log2 - 52 = k := by omega
      have held := holds_shift (holds_fraction (m₁ * 2 ^ 53) m₂) ((m₁ * 2 ^ 53 / m₂).log2 - 52)
      rw [full] at held carried
      have := rounded_le (n := 2 ^ 53 - 1) held (by omega)
      omega

theorem unpack_quotient {c t : Nat} (positive : 0 < c) (less : c < t) (bounded : t < 2 ^ 53) :
    ∃ r f pos, (natToFloat c / natToFloat t).toModel.unpack = .finite .positive r f pos ∧
      Normal r f ∧ -1000 ≤ f ∧ f ≤ -53 := by
  obtain ⟨_, first⟩ := unpack_natToFloat positive (by omega)
  obtain ⟨_, second⟩ := unpack_natToFloat (n := t) (by omega) bounded
  obtain ⟨low₁, high₁⟩ := count_canonical positive (by omega)
  obtain ⟨low₂, high₂⟩ := count_canonical (n := t) (by omega) bounded
  have log : t.log2 < 53 := (Nat.log2_lt (by omega)).mpr bounded
  have logs : c.log2 ≤ t.log2 := by
    rw [Nat.le_log2 (by omega)]
    exact le_trans (Nat.log2_self_le (by omega)) less.le
  have below : 2 ^ 54 * (c * 2 ^ (52 - c.log2)) <
      (2 ^ 54 - 1) * (2 ^ (t.log2 - c.log2) * (t * 2 ^ (52 - t.log2))) := by
    have split : 2 ^ (52 - c.log2) = 2 ^ (t.log2 - c.log2) * 2 ^ (52 - t.log2) := by
      rw [← Nat.pow_add, show t.log2 - c.log2 + (52 - t.log2) = 52 - c.log2 by omega]
    calc
      2 ^ 54 * (c * 2 ^ (52 - c.log2)) = 2 ^ 54 * c * 2 ^ (52 - c.log2) := by ring
      _ < (2 ^ 54 - 1) * t * 2 ^ (52 - c.log2) := Nat.mul_lt_mul_of_pos_right (by omega) (Nat.two_pow_pos _)
      _ = (2 ^ 54 - 1) * (2 ^ (t.log2 - c.log2) * (t * 2 ^ (52 - t.log2))) := by rw [split]; ring
  obtain ⟨r, f, pos, divided, normal, bound⟩ := div_below_one (e := (t.log2 : Int) - 52) low₁ high₁ low₂ high₂
    (by omega) below (by omega) (by omega)
  refine ⟨r, f, pos, ?_, normal, bound⟩
  rw [toModel_div, first, second,
    show (c.log2 : Int) - 52 = (t.log2 : Int) - 52 - ((t.log2 - c.log2 : Nat) : Int) by omega, divided]
  exact unpack_pack normal pos

/-! ### Percentages -/

theorem unpack_hundred : ∃ pos, (100.0 : Float).toModel.unpack = .finite .positive (100 * 2 ^ 46) (-46) pos := by
  have packed : (100.0 : Float).toModel =
      Float.Model.pack (.finite .positive (100 * 2 ^ 46) (-46) (by decide)) := by decide +kernel
  rw [packed]
  exact ⟨by decide, unpack_pack ⟨by decide, by decide, by decide, by decide⟩ _⟩

theorem mul_hundred_below {r : Nat} {f : Int} (normal : Normal r f) (bound : f ≤ -53) (pos : 0 < r)
    (hundred : 0 < 100 * 2 ^ 46) (tiny : -1000 ≤ f) :
    ∃ m g pos', UnpackedFloat.mul Format.binary64 (.finite .positive r f pos)
        (.finite .positive (100 * 2 ^ 46) (-46) hundred) = .finite .positive m g pos' ∧
      Normal m g ∧ ¬ (m = 100 * 2 ^ 46 ∧ g = -46) := by
  obtain ⟨low, high, -, -⟩ := normal
  have wide : 2 ^ 52 ≤ r * (100 * 2 ^ 46) := by omega
  have bits : (r * (100 * 2 ^ 46)).log2 - 52 ≤ 53 := by
    have : (r * (100 * 2 ^ 46)).log2 < 106 := by rw [Nat.log2_lt (by omega)]; omega
    omega
  obtain ⟨m, g, pos', rounded, low', high', place⟩ := roundWithAccuracy_normal (e := f + -46) .exact wide (by omega)
  refine ⟨m, g, pos', rounded, ⟨low', high', by omega, by omega⟩, ?_⟩
  rintro ⟨mantissa, exponent⟩
  rcases place with ⟨kept, place⟩ | ⟨carried, -, -⟩
  · obtain full : (r * (100 * 2 ^ 46)).log2 - 52 = 53 := by omega
    have exact : Holds (r * (100 * 2 ^ 46)) 1
        (ExtendedMantissa.ofMantissaAndAccuracy (r * (100 * 2 ^ 46)) .exact) := by
      refine ⟨?_, fun bit => by cases bit⟩
      rw [mantissa_ofMantissaAndAccuracy, Nat.mul_one]
    have held := holds_shift exact ((r * (100 * 2 ^ 46)).log2 - 52)
    rw [full] at held kept
    have := rounded_le (n := 100 * 2 ^ 46 - 1) held (by omega)
    omega
  · omega

theorem div_self_count {t : Nat} (positive : 0 < t) (bounded : t < 2 ^ 53) :
    natToFloat t / natToFloat t = 1.0 := by
  obtain ⟨_, count⟩ := unpack_natToFloat positive bounded
  obtain ⟨low, high⟩ := count_canonical positive bounded
  have log := (Nat.log2_eq_iff (by omega)).mpr ⟨low, high⟩
  apply eq_of_toModel
  rw [toModel_div, count]
  unfold UnpackedFloat.div
  dsimp only
  rw [divCore_normal log log (by omega), Nat.mul_div_cancel_left _ (by omega), Nat.mul_mod_right,
    Int.sub_self, accuracyOfFraction, if_pos rfl]
  decide +kernel

theorem div_zero_count {t : Nat} (positive : 0 < t) (bounded : t < 2 ^ 53) :
    natToFloat 0 / natToFloat t = 0.0 := by
  obtain ⟨_, count⟩ := unpack_natToFloat positive bounded
  apply eq_of_toModel
  rw [toModel_div, count, show (natToFloat 0).toModel.unpack = .zero .positive from rfl]
  change Float.Model.pack (.zero .positive) = _
  decide +kernel

/-- A share of counts below `2 ^ 53` is 100% exactly where the counts are equal. -/
theorem percent_eq_hundred_iff {c t : Nat} (positive : 0 < t) (bounded : t < 2 ^ 53) (within : c ≤ t) :
    natToFloat c / natToFloat t * 100.0 = 100.0 ↔ c = t := by
  constructor
  · intro full
    by_contra partly
    rcases Nat.eq_zero_or_pos c with rfl | some
    · rw [div_zero_count positive bounded] at full
      exact absurd full (by decide +kernel)
    · obtain ⟨r, f, pos, quotient, normal, tiny, bound⟩ := unpack_quotient some (by omega) bounded
      obtain ⟨_, hundred⟩ := unpack_hundred
      obtain ⟨m, g, pos', product, canonical, differs⟩ :=
        mul_hundred_below normal bound pos (by decide) tiny
      have unpacked := congrArg (fun x : Float => x.toModel.unpack) full
      simp only [toModel_mul] at unpacked
      rw [quotient, hundred, product, unpack_pack canonical] at unpacked
      obtain ⟨-, mantissa, exponent⟩ := UnpackedFloat.finite.inj unpacked
      exact differs ⟨mantissa, exponent⟩
  · intro same
    rw [same, div_self_count positive bounded]
    decide +kernel

end Numeric
