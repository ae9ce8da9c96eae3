import Mathlib
import SpatialDiagram.Value.Basic

/-!
# The order of floating-point numbers

Of two numbers that are no NaN, the first is at most the second or the second is
below the first. The number nearest to a positive integer is positive: the
leading bit of a mantissa survives rounding, and the exponent stays away from
the smallest one, so that nothing rounds to zero.
-/

namespace SpatialDiagram

namespace Decimal

open Float.Model (Format UnpackedFloat totalExponent)
open Float.Model.UnpackedFloat

/-! ## Comparison -/

theorem compare_swap (a b : UnpackedFloat) : (a.compare b).map Ordering.swap = b.compare a := by
  have hfinite (e f : Int) (m n : Nat) :
      ((compare e f).then (compare m n)).swap = (compare f e).then (compare n m) := by
    rw [Ordering.swap_then, ← Std.OrientedCmp.eq_swap, ← Std.OrientedCmp.eq_swap]
  have hinfinite (s t : Sign) : (compare s t).swap = compare t s := by
    cases s <;> cases t <;> rfl
  rcases a with ⟨_ | _⟩ | _ | ⟨_ | _⟩ | ⟨_ | _, m, e, hm⟩ <;>
    rcases b with ⟨_ | _⟩ | _ | ⟨_ | _⟩ | ⟨_ | _, n, f, hn⟩ <;>
    simp [UnpackedFloat.compare, hfinite, hinfinite]

/-- Two numbers compare unless one of them is a NaN. -/
theorem compare_eq_none_iff (a b : UnpackedFloat) :
    a.compare b = none ↔ a.isNaN = true ∨ b.isNaN = true := by
  rcases a with ⟨_ | _⟩ | _ | ⟨_ | _⟩ | ⟨_ | _, m, e, hm⟩ <;>
    rcases b with ⟨_ | _⟩ | _ | ⟨_ | _⟩ | ⟨_ | _, n, f, hn⟩ <;>
    simp [UnpackedFloat.compare, UnpackedFloat.isNaN]

/-- The order of floats is the comparison of their unpacked forms. -/
theorem lt_iff_compare (x y : Float) :
    x < y ↔ x.toModel.unpack.compare y.toModel.unpack = some .lt := by
  change Float.lt x y = true ↔ _
  rw [Float.lt, decide_eq_true_eq]
  exact beq_iff_eq

theorem le_iff_compare (x y : Float) :
    x ≤ y ↔ (x.toModel.unpack.compare y.toModel.unpack).any Ordering.isLE = true := by
  change Float.le x y = true ↔ _
  rw [Float.le, decide_eq_true_eq]
  rfl

/-- Apart from NaN the order is total. -/
theorem not_le_iff_lt {x y : Float} (hx : x.isNaN = false) (hy : y.isNaN = false) :
    ¬ x ≤ y ↔ y < x := by
  rw [le_iff_compare, lt_iff_compare, ← compare_swap x.toModel.unpack]
  cases h : x.toModel.unpack.compare y.toModel.unpack with
  | none =>
      obtain hnan | hnan := (compare_eq_none_iff _ _).mp h
      · exact absurd hnan (Bool.eq_false_iff.mp hx)
      · exact absurd hnan (Bool.eq_false_iff.mp hy)
  | some o => cases o <;> simp

/-- Away from NaN the order is total. -/
theorem not_lt_iff_le {x y : Float} (hx : x.isNaN = false) (hy : y.isNaN = false) :
    ¬ x < y ↔ y ≤ x := by
  rw [← not_le_iff_lt hy hx, Decidable.not_not]

theorem not_isNaN_of_compare {x y : Float}
    (h : x.toModel.unpack.compare y.toModel.unpack ≠ none) : x.isNaN = false ∧ y.isNaN = false := by
  rw [Ne, compare_eq_none_iff, not_or] at h
  exact ⟨Bool.eq_false_iff.mpr h.1, Bool.eq_false_iff.mpr h.2⟩

theorem not_isNaN_of_lt {x y : Float} (h : x < y) : x.isNaN = false ∧ y.isNaN = false := by
  rw [lt_iff_compare] at h
  exact not_isNaN_of_compare (by simp [h])

theorem not_isNaN_of_le {x y : Float} (h : x ≤ y) : x.isNaN = false ∧ y.isNaN = false := by
  rw [le_iff_compare] at h
  exact not_isNaN_of_compare fun hnone => by simp [hnone] at h

/-! ## Rounding positive numbers -/

/-- A positive number with a mantissa of full length and a bound below its exponent. -/
def IsPositive (low : Int) (u : UnpackedFloat) : Prop :=
  u = .infinity .positive ∨
    ∃ m e h, u = .finite .positive m e h ∧ 2 ^ 52 ≤ m ∧ m < 2 ^ 53 ∧ low ≤ e

/-- A lower bound may be lowered. -/
theorem isPositive_mono {low low' : Int} (hle : low' ≤ low) {u : UnpackedFloat}
    (hu : IsPositive low u) : IsPositive low' u := by
  obtain hinfinite | ⟨m, e, h, hu, hm, hm', he⟩ := hu
  · exact .inl hinfinite
  · exact .inr ⟨m, e, h, hu, hm, hm', Int.le_trans hle he⟩

theorem shift_mantissa (em : ExtendedMantissa) (k : Nat) :
    (em >>> k).mantissa = em.mantissa / 2 ^ k := by
  induction k with
  | zero => exact (Nat.div_one _).symm
  | succ k ih =>
      have hstep : (em >>> (k + 1)).mantissa = (em >>> k).mantissa / 2 := rfl
      rw [hstep, ih, Nat.div_div_eq_div_mul, Nat.pow_succ]

/-- Rounding adds at most one unit to a mantissa. -/
theorem roundedMantissa_bounds (em : ExtendedMantissa) :
    em.mantissa ≤ em.roundedMantissa ∧ em.roundedMantissa ≤ em.mantissa + 1 := by
  obtain ⟨m, _ | _, _ | _⟩ := em <;>
    simp only [ExtendedMantissa.roundedMantissa, ExtendedMantissa.accuracy,
      Accuracy.roundToNearestEven] <;> omega

/-- A mantissa of full length or more is cut to full length. -/
theorem targetExponent_eq {m : Nat} {e : Int} (hm : 2 ^ 52 ≤ m) (he : -1074 ≤ e) :
    Format.binary64.targetExponent (totalExponent m e) = e + (m.log2 - 52 : Nat) := by
  have hlog : 52 ≤ m.log2 := (Nat.le_log2 (by omega)).mpr hm
  simp only [Format.targetExponent, totalExponent, Format.mantissaBits, Format.minExponent]
  omega

theorem shiftToTargetExponent_eq {m : Nat} {e : Int} (hm : 2 ^ 52 ≤ m) (he : -1074 ≤ e) :
    shiftToTargetExponent Format.binary64 m e .exact =
      (ExtendedMantissa.mk m false false >>> (m.log2 - 52), e + (m.log2 - 52 : Nat)) := by
  have hshift : (e + (m.log2 - 52 : Nat) - e).toNat = m.log2 - 52 := by omega
  simp only [shiftToTargetExponent, shiftToExponent, targetExponent_eq hm he, hshift]
  rfl

/-- A mantissa cut to its first bits has full length. -/
theorem cut_bounds {m : Nat} (hm : 2 ^ 52 ≤ m) :
    2 ^ 52 ≤ m / 2 ^ (m.log2 - 52) ∧ m / 2 ^ (m.log2 - 52) < 2 ^ 53 := by
  have hne : m ≠ 0 := by omega
  have hlog : 52 ≤ m.log2 := (Nat.le_log2 hne).mpr hm
  constructor
  · rw [Nat.le_div_iff_mul_le (Nat.two_pow_pos _), ← Nat.pow_add, Nat.add_sub_cancel' hlog]
    exact Nat.log2_self_le hne
  · have hexponent : 53 + (m.log2 - 52) = m.log2 + 1 := by omega
    rw [Nat.div_lt_iff_lt_mul (Nat.two_pow_pos _), ← Nat.pow_add, hexponent]
    exact Nat.lt_log2_self

/-- Rounding cuts a mantissa to its full length, and then again if rounding up has given it one bit
too many. -/
theorem exists_round {m r : Nat} {e : Int} (hm : 2 ^ 52 ≤ m) (he : -1074 ≤ e)
    (hr : (ExtendedMantissa.mk m false false >>> (m.log2 - 52)).roundedMantissa = r) :
    2 ^ 52 ≤ r ∧ ∃ h, roundWithAccuracy Format.binary64 .positive m e .exact =
      .finite .positive (r / 2 ^ (r.log2 - 52))
        (e + (m.log2 - 52 : Nat) + (r.log2 - 52 : Nat)) h := by
  have hround := roundedMantissa_bounds (ExtendedMantissa.mk m false false >>> (m.log2 - 52))
  rw [shift_mantissa, hr] at hround
  have hr' : 2 ^ 52 ≤ r := Nat.le_trans (cut_bounds hm).1 hround.1
  have he' : -1074 ≤ e + ((m.log2 - 52 : Nat) : Int) := by omega
  have hmantissa : (ExtendedMantissa.mk r false false >>> (r.log2 - 52)).mantissa =
      r / 2 ^ (r.log2 - 52) := shift_mantissa _ _
  have hpos : 0 < r / 2 ^ (r.log2 - 52) := Nat.lt_of_lt_of_le (by decide) (cut_bounds hr').1
  refine ⟨hr', hpos, ?_⟩
  rw [roundWithAccuracy, shiftToTargetExponent_eq hm he]
  simp only [hr, shiftToTargetExponent_eq hr' he', hmantissa]
  rw [dif_neg (Nat.ne_of_gt hpos)]

/-- A mantissa of full length or more is still of full length after it is rounded. -/
theorem isPositive_round {m : Nat} {e : Int} (hm : 2 ^ 52 ≤ m) (he : -1074 ≤ e) :
    IsPositive e (roundWithAccuracy Format.binary64 .positive m e .exact) := by
  obtain ⟨hr, h, hround⟩ := exists_round hm he rfl
  obtain ⟨hlow, hhigh⟩ := cut_bounds hr
  exact .inr ⟨_, _, h, hround, hlow, hhigh, by omega⟩

theorem toNat_one_append (v : BitVec 52) : (1#1 ++ v).toNat = 2 ^ 52 + v.toNat := by
  rw [BitVec.toNat_append, ← Nat.shiftLeft_add_eq_or_of_lt v.isLt]
  rfl

/-- The fields of a normal number give back its mantissa, with the leading bit, and its exponent. -/
theorem exists_unpack_components {b : Nat} (hb : 1 ≤ b) (hb' : b + 1 < 2 ^ 11) (v : BitVec 52) :
    ∃ h, unpack Format.binary64 (packComponents Format.binary64 .positive (BitVec.ofNat 11 b) v) =
      .finite .positive (2 ^ 52 + v.toNat) ((b : Int) - 1075) h := by
  have hfield : (BitVec.ofNat 11 b).toNat = b := by
    rw [BitVec.toNat_ofNat]
    omega
  have hones : BitVec.ofNat 11 b ≠ -1#11 := by
    intro h
    have h' : b = 2047 := by rw [← hfield, h]; rfl
    omega
  have hzero : BitVec.ofNat 11 b ≠ 0#11 := by
    intro h
    have h' : b = 0 := by rw [← hfield, h]; rfl
    omega
  refine ⟨by omega, ?_⟩
  simp only [unpack, unpackExponent_packComponents, unpackMantissa_packComponents,
    unpackSign_packComponents]
  rw [if_neg hones, if_neg hzero]
  simp only [toNat_one_append, hfield]
  rfl

/-- Packing keeps a positive number what it is, or makes it infinite. -/
theorem isPositive_unpack_pack {low : Int} (hlow : -1074 ≤ low) {u : UnpackedFloat}
    (hu : IsPositive low u) : IsPositive low (Float.Model.pack u).unpack := by
  obtain rfl | ⟨m, e, h, rfl, hm, hm', he⟩ := hu
  · exact .inl rfl
  · have hlog : m.log2 = 52 := (Nat.log2_eq_iff (by omega)).mpr ⟨hm, hm'⟩
    have hbits : m.log2 + 1 = Format.binary64.mantissaBits := by rw [hlog]; rfl
    change IsPositive low (unpack Format.binary64 (pack Format.binary64 (.finite .positive m e h)))
    rw [pack]
    simp only [if_pos hbits]
    split
    · exact .inl rfl
    · rename_i hfinite
      change ¬ 2 ^ 11 ≤ (e + 1023 + 52).toNat + 1 at hfinite
      have hv := (BitVec.ofNat 52 m).isLt
      obtain ⟨h', hunpack⟩ := exists_unpack_components (b := (e + 1023 + 52).toNat) (by omega)
        (by omega) (BitVec.ofNat 52 m)
      exact .inr ⟨_, _, h', hunpack, by omega, by omega, by omega⟩

/-! ## Integers as floating-point numbers -/

/-- A product with one is positive as before. -/
theorem isPositive_mul_one {low : Int} (hlow : -1022 ≤ low) {u : UnpackedFloat}
    (hu : IsPositive low u) :
    IsPositive (low - 52)
      (u.mul Format.binary64 (.finite .positive (2 ^ 52) (-52) (by decide))) := by
  obtain rfl | ⟨m, e, h, rfl, hm, hm', he⟩ := hu
  · exact .inl rfl
  · have hmul : UnpackedFloat.mul Format.binary64 (.finite .positive m e h)
        (.finite .positive (2 ^ 52) (-52) (by decide)) =
          roundWithAccuracy Format.binary64 .positive (m * 2 ^ 52) (e + -52) .exact := rfl
    rw [hmul]
    exact isPositive_mono (by omega)
      (isPositive_round (Nat.le_mul_of_pos_left _ h) (by omega))

/-- A positive integer becomes a positive number. -/
theorem isPositive_ofNat {n : Nat} (hn : 0 < n) :
    IsPositive (-52) (UnpackedFloat.ofNat Format.binary64 n) := by
  have hcompare : compare (n : Int) 0 = .gt := Int.compare_eq_gt.mpr (by omega)
  have htarget : Format.binary64.targetExponent (totalExponent n 0) = (n.log2 : Int) - 52 := by
    simp only [Format.targetExponent, totalExponent, Format.mantissaBits, Format.minExponent]
    omega
  change IsPositive (-52) (UnpackedFloat.normalize Format.binary64 n 0 .positive)
  rw [UnpackedFloat.normalize, hcompare]
  simp only [Int.toNat_natCast, UnpackedFloat.round, htarget, decreaseExponent]
  generalize hk : (0 - ((n.log2 : Int) - 52)).toNat = k
  have hmantissa : 2 ^ 52 ≤ n <<< k := by
    calc 2 ^ 52 ≤ 2 ^ (n.log2 + k) := Nat.pow_le_pow_right (by decide) (by omega)
      _ = 2 ^ n.log2 * 2 ^ k := Nat.pow_add _ _ _
      _ ≤ n * 2 ^ k := Nat.mul_le_mul_right _ (Nat.log2_self_le (by omega))
      _ = n <<< k := (Nat.shiftLeft_eq _ _).symm
  exact isPositive_mono (by omega) (isPositive_round hmantissa (by omega))

/-- An integer of more bits than a mantissa has is rounded as a decimal is. -/
theorem ofNat_of_large {n : Nat} (hn : 2 ^ 53 ≤ n) : Float.ofNat n = .ofModel
    (.pack (roundWithAccuracy Format.binary64 .positive (n * 2 ^ 53) (-53) .exact)) := by
  have hread : UnpackedFloat.ofScientific Format.binary64 n 0 =
      roundWithAccuracy Format.binary64 .positive (n <<< 53 * 1) (-53 + 0) .exact := by
    rw [UnpackedFloat.ofScientific, dif_neg (by omega), if_neg (by decide), if_neg,
      if_pos (by decide)]
    · rfl
    · change ¬ 0 < -((2 : Int) ^ 11 + (n.log2 : Int))
      omega
  rw [Nat.shiftLeft_eq, Nat.mul_one, Int.add_zero] at hread
  rw [← hread]
  change Float.ofScientific n false 0 = _
  rw [Float.ofScientific, dif_neg (by omega)]
  rfl

/-- A small integer is multiplied by one. -/
theorem isPositive_toModel_ofNat {n : Nat} (hn : 0 < n) :
    IsPositive (-104) (Float.ofNat n).toModel.unpack := by
  by_cases hlarge : 2 ^ 53 ≤ n
  · rw [ofNat_of_large hlarge]
    exact isPositive_unpack_pack (by omega)
      (isPositive_mono (by omega) (isPositive_round (by omega) (by omega)))
  · have hword : n.toUInt64.toNat = n := by
      simp only [Nat.toUInt64, UInt64.toNat_ofNat']
      omega
    have hone : Float.exactlyRepresentablePowersOfTen[0].toModel.unpack =
        .finite .positive (2 ^ 52) (-52) (by decide) := rfl
    have hmul : (n.toUInt64.toFloat * Float.exactlyRepresentablePowersOfTen[0]).toModel.unpack =
        (Float.Model.pack
          ((Float.Model.pack (UnpackedFloat.ofNat Format.binary64 n.toUInt64.toNat)).unpack.mul
            Format.binary64 Float.exactlyRepresentablePowersOfTen[0].toModel.unpack)).unpack := rfl
    change IsPositive (-104) (Float.ofScientific n false 0).toModel.unpack
    rw [Float.ofScientific, dif_pos (by omega)]
    simp only [Bool.false_eq_true, if_false]
    rw [hmul, hone, hword]
    have hpacked := isPositive_unpack_pack (by omega) (isPositive_ofNat hn)
    exact isPositive_unpack_pack (by omega) (isPositive_mul_one (by omega) hpacked)

/-- The number nearest to a positive integer is positive, an infinity included. -/
theorem zero_lt_ofInt {n : Int} (hn : 0 < n) : 0.0 < Float.ofInt n := by
  have hzero : (0.0 : Float).toModel.unpack = .zero .positive := rfl
  obtain ⟨k, rfl⟩ : ∃ k : Nat, n = k := ⟨n.toNat, by omega⟩
  change 0.0 < Float.ofNat k
  rw [lt_iff_compare, hzero]
  obtain hk | ⟨m, e, h, hk, -⟩ := isPositive_toModel_ofNat (n := k) (by omega)
  · rw [hk]; rfl
  · rw [hk]; rfl

end Decimal

end SpatialDiagram
