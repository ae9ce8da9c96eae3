import Mathlib.Algebra.Order.Field.Basic
import SpatialDiagram.Geometry.Vec

/-!
# Exact arithmetic

The numbers of an ordered field are scalars whose operations do not round, so
whatever is stated over any scalars can be computed with them. The operations of
vectors then work component by component, as `get` shows.
-/

namespace SpatialDiagram

namespace Scalar

namespace Exact

scoped instance exact {K : Type} [Field K] [LinearOrder K] : Scalar K where
  ofInt n := n
  less a b := a < b

end Exact

open scoped Exact

variable {K : Type} [Field K] [LinearOrder K]

@[simp] theorem exact_ofInt (n : Int) : (ofInt n : K) = n := rfl

@[simp] theorem exact_zero : (zero : K) = 0 := Int.cast_zero

@[simp] theorem exact_one : (one : K) = 1 := Int.cast_one

@[simp] theorem exact_two : (two : K) = 2 := Int.cast_ofNat 2

end Scalar

open scoped Scalar.Exact

namespace Vec

variable {K : Type} [Field K] [LinearOrder K]

@[simp] theorem get_add (v w : Vec K) (a : Axis) : (v + w).get a = v.get a + w.get a := by
  cases a <;> rfl

@[simp] theorem get_sub (v w : Vec K) (a : Axis) : (v - w).get a = v.get a - w.get a := by
  cases a <;> rfl

@[simp] theorem get_mul (v w : Vec K) (a : Axis) : (v.mul w).get a = v.get a * w.get a := by
  cases a <;> rfl

@[simp] theorem get_scaled (v : Vec K) (k : K) (a : Axis) : (v.scaled k).get a = v.get a * k := by
  cases a <;> rfl

@[simp] theorem get_half (v : Vec K) (a : Axis) : v.half.get a = v.get a / 2 := by
  cases a <;> simp [half, map, get]

@[simp] theorem get_zero (a : Axis) : (zero : Vec K).get a = 0 := by
  cases a <;> simp [zero, uniform, get]

@[simp] theorem get_along (a b : Axis) (s : K) : (along a s).get b = if a = b then s else 0 := by
  rw [along, get_modify, get_zero]

@[simp] theorem along_zero (a : Axis) : along a (0 : K) = zero := by
  apply ext_get
  simp

@[simp] theorem add_zero (v : Vec K) : v + zero = v := by
  apply ext_get
  simp

@[simp] theorem zero_add (v : Vec K) : zero + v = v := by
  apply ext_get
  simp

/-- A vector along an axis scales with its length. -/
theorem along_mul (a : Axis) (r s : K) : along a (r * s) = (along a r).scaled s := by
  apply ext_get
  simp

end Vec

end SpatialDiagram
