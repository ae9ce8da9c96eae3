import SpatialDiagram.Decimal.Reading
import SpatialDiagram.Proofs.Decimal.FloatOrder

/-!
# Integers and their decimals

The number nearest to an integer is the same whether the integer is converted or
its digits are read as a decimal. Only at the end of the range the two part:
from half a unit behind the greatest number on, the conversion fails, and the
digits are read as an infinity. A zero may keep its sign in a decimal, which an
integer has not.
-/

namespace SpatialDiagram

namespace Decimal

open Float.Model (Format UnpackedFloat)
open Float.Model.UnpackedFloat

/-! ## Rounding to an infinity -/

/-- The round bit is the last bit that was shifted out. -/
theorem shift_roundBit (em : ExtendedMantissa) (k : Nat) :
    (em >>> (k + 1)).roundBit = (em.mantissa / 2 ^ k % 2 != 0) := by
  have hstep : (em >>> (k + 1)).roundBit = ((em >>> k).mantissa % 2 != 0) := rfl
  rw [hstep, shift_mantissa]

/-- Halfway to the next mantissa and beyond an odd mantissa is rounded up. -/
theorem roundedMantissa_of_odd {em : ExtendedMantissa} (hbit : em.roundBit = true)
    (hodd : em.mantissa % 2 = 1) : em.roundedMantissa = em.mantissa + 1 := by
  obtain ⟨m, roundBit, _ | _⟩ := em <;>
    obtain rfl : roundBit = true := hbit <;>
    simp_all [ExtendedMantissa.roundedMantissa, ExtendedMantissa.accuracy,
      Accuracy.roundToNearestEven]

/-- From halfway behind the greatest mantissa on, an integer is either cut to a greater exponent or
rounded up to one. -/
theorem isPositive_round_of_le {n k : Nat} (hn : (2 ^ 54 - 1) * 2 ^ k ≤ n) :
    IsPositive (k + 2) (roundWithAccuracy Format.binary64 .positive (n * 2 ^ 53) (-53) .exact) := by
  have hpow : 2 ^ (k + 53) ≤ n := by
    calc 2 ^ (k + 53) = 2 ^ 53 * 2 ^ k := by rw [Nat.add_comm, Nat.pow_add]
      _ ≤ (2 ^ 54 - 1) * 2 ^ k := Nat.mul_le_mul_right _ (by decide)
      _ ≤ n := hn
  have hne : n * 2 ^ 53 ≠ 0 := by
    have hpos := Nat.two_pow_pos (k + 53)
    omega
  have hlow : k + 106 ≤ (n * 2 ^ 53).log2 := by
    rw [Nat.le_log2 hne, show k + 106 = k + 53 + 53 by omega, Nat.pow_add]
    exact Nat.mul_le_mul_right _ hpow
  have hfull : 2 ^ 52 ≤ n * 2 ^ 53 := by
    have hpos := Nat.two_pow_pos (k + 53)
    omega
  obtain ⟨hr, h, hround⟩ := exists_round hfull (by decide : (-1074 : Int) ≤ -53) rfl
  obtain ⟨hmantissa, hmantissa'⟩ := cut_bounds hr
  refine .inr ⟨_, _, h, hround, hmantissa, hmantissa', ?_⟩
  by_cases hlarge : k + 107 ≤ (n * 2 ^ 53).log2
  · omega
  · have hlog : (n * 2 ^ 53).log2 - 52 = k + 53 + 1 := by omega
    have hhigh : n < 2 ^ 54 * 2 ^ k := by
      have hlt := (Nat.log2_lt hne).mp (Nat.lt_of_not_le hlarge)
      rw [show k + 107 = 54 + k + 53 by omega, Nat.pow_add, Nat.pow_add] at hlt
      exact Nat.lt_of_mul_lt_mul_right hlt
    have hdiv : n * 2 ^ 53 / 2 ^ (k + 53) = 2 ^ 54 - 1 := by
      rw [Nat.pow_add, Nat.mul_div_mul_right _ _ (by decide)]
      exact Nat.div_eq_of_lt_le hn (by simpa using hhigh)
    have hodd : (ExtendedMantissa.mk (n * 2 ^ 53) false false >>> (k + 53 + 1)).mantissa =
        2 ^ 53 - 1 := by
      have hpow : 2 ^ (k + 53 + 1) = 2 ^ (k + 53) * 2 := Nat.pow_succ 2 (k + 53)
      rw [shift_mantissa, hpow, ← Nat.div_div_eq_div_mul]
      simp only [hdiv]
      decide
    have hbit : (ExtendedMantissa.mk (n * 2 ^ 53) false false >>> (k + 53 + 1)).roundBit =
        true := by
      rw [shift_roundBit]
      simp only [hdiv]
      decide
    have hrounded := roundedMantissa_of_odd hbit (by rw [hodd]; decide)
    have hlog' : (2 ^ 53 - 1 + 1).log2 = 53 := by decide +kernel
    rw [hlog, hrounded, hodd, hlog']
    omega

/-- No exponent is left for a number of that size. -/
theorem pack_of_isPositive {u : UnpackedFloat} (hu : IsPositive 972 u) :
    Float.Model.pack u = Float.Model.pack (.infinity .positive) := by
  obtain rfl | ⟨m, e, h, rfl, -, -, he⟩ := hu
  · rfl
  · have hlarge : 2 ^ 11 ≤ (e + 1023 + 52).toNat + 1 := by omega
    have hpack : pack Format.binary64 (.finite .positive m e h) =
        pack Format.binary64 (.infinity .positive) := by
      rw [pack]
      exact if_pos hlarge
    simp only [Float.Model.pack, hpack]

/-- From the limit on, an integer becomes infinite. -/
theorem ofNat_of_floatLimit_le {n : Nat} (hn : Number.floatLimit ≤ n) :
    Float.ofNat n = 1.0 / 0.0 := by
  have hlimit : (2 ^ 54 - 1) * 2 ^ 970 = Number.floatLimit := by decide +kernel
  have hlarge : 2 ^ 53 ≤ Number.floatLimit := by decide +kernel
  rw [ofNat_of_large (Nat.le_trans hlarge hn),
    pack_of_isPositive (isPositive_round_of_le (k := 970) (hlimit ▸ hn))]
  rfl

/-! ## Integers read as decimals -/

/-- From the limit on, the digits of an integer are read as infinity of their sign. -/
theorem ofDecimal_of_floatLimit_le (negative : Bool) {n : Nat} (hn : Number.floatLimit ≤ n) :
    ofDecimal negative n 0 = if negative then -(1.0 / 0.0) else 1.0 / 0.0 := by
  have hpos : 0 < Number.floatLimit := by decide +kernel
  have hzero : ¬ (n = 0 || (n.log2 : Int) * 30103 / 100000 + 0 < -340) = true := by
    rw [Bool.or_eq_true, decide_eq_true_eq, decide_eq_true_eq]
    omega
  have hread : Float.ofScientific n false (0 : Int).toNat = 1.0 / 0.0 := ofNat_of_floatLimit_le hn
  simp only [ofDecimal, if_neg hzero, hread, Int.le_refl, if_true, ite_self]

/-- Below the limit, the digits of an integer are read as the float of the integer. -/
theorem ofDecimal_of_lt_floatLimit (negative : Bool) {n : Nat} (hpos : 0 < n)
    (hn : n < Number.floatLimit) :
    ofDecimal negative n 0 = Float.ofInt (if negative then -(n : Int) else n) := by
  have hlog : n.log2 < 1024 := (Nat.log2_lt (by omega)).mpr <|
    Nat.lt_of_lt_of_le hn (by decide +kernel)
  have hzero : ¬ (n = 0 || (n.log2 : Int) * 30103 / 100000 + 0 < -340) = true := by
    rw [Bool.or_eq_true, decide_eq_true_eq, decide_eq_true_eq]
    omega
  have htop : ¬ 320 < (n.log2 : Int) * 30103 / 100000 + 0 := by omega
  have hread : Float.ofScientific n false (0 : Int).toNat = Float.ofNat n := rfl
  simp only [ofDecimal, if_neg hzero, if_neg htop, hread, Int.le_refl, if_true]
  cases negative with
  | false => rfl
  | true =>
      obtain ⟨m, rfl⟩ : ∃ m, n = m + 1 := ⟨n - 1, by omega⟩
      rfl

/-- The same number, or two zeros of either sign. -/
def SameAmount (x y : Float) : Prop := x = y ∨ x = 0.0 ∧ y = -0.0

theorem SameAmount.isFinite_eq {x y : Float} (h : SameAmount x y) : x.isFinite = y.isFinite := by
  obtain rfl | ⟨rfl, rfl⟩ := h <;> rfl

theorem SameAmount.zero_lt_iff {x y : Float} (h : SameAmount x y) : 0.0 < x ↔ 0.0 < y := by
  obtain rfl | ⟨rfl, rfl⟩ := h
  · exact Iff.rfl
  · decide +kernel

/-- A finite number equals itself. -/
theorem beq_self_of_isFinite {x : Float} (h : x.isFinite = true) : (x == x) = true := by
  have hnan : ¬ x.toModel.unpack.isNaN = true := fun hnan => by
    change x.toModel.unpack.isFinite = true at h
    cases hx : x.toModel.unpack <;> simp_all [UnpackedFloat.isFinite, UnpackedFloat.isNaN]
  have hswap := compare_swap x.toModel.unpack x.toModel.unpack
  change (x.toModel.unpack.compare x.toModel.unpack == some .eq) = true
  cases hcompare : x.toModel.unpack.compare x.toModel.unpack with
  | none => exact absurd ((compare_eq_none_iff _ _).mp hcompare) (by simp [hnan])
  | some o =>
      rw [hcompare] at hswap
      cases o <;> simp_all

theorem SameAmount.beq {x y : Float} (h : SameAmount x y) (hx : x.isFinite = true) :
    (x == y) = true := by
  obtain rfl | ⟨rfl, rfl⟩ := h
  · exact beq_self_of_isFinite hx
  · rfl

/-- An integer that is not beyond all floating-point numbers is the amount that its digits are. -/
theorem sameAmount_ofDecimal (negative : Bool) {n : Nat} (hn : n < Number.floatLimit) :
    SameAmount (Float.ofInt (if negative then -(n : Int) else n)) (ofDecimal negative n 0) := by
  obtain rfl | hpos := Nat.eq_zero_or_pos n
  · cases negative with
    | false => exact .inl rfl
    | true => exact .inr ⟨rfl, rfl⟩
  · exact .inl (ofDecimal_of_lt_floatLimit negative hpos hn).symm

/-- From the limit on, no finite number is read from digits. -/
theorem not_isFinite_ofDecimal (negative : Bool) {n : Nat} (hn : Number.floatLimit ≤ n) :
    (ofDecimal negative n 0).isFinite = false := by
  rw [ofDecimal_of_floatLimit_le negative hn]
  cases negative <;> rfl

end Decimal

end SpatialDiagram
