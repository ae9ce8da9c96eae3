import Mathlib.Algebra.Order.Ring.Unbundled.Rat
import Mathlib.Tactic.Positivity
import Mathlib.Tactic.Ring
import SpatialDiagram.Geometry.Face
import SpatialDiagram.Proofs.Geometry.ExactArithmetic

/-!
# The winding of faces

The first three corners of a face turn to a direction, the cross product of its
first two sides. A face is as wide as the extents along the two axes in its
plane, taken in their usual order, and its sides follow these axes, so the turn
has the size of the face, and its sense depends on the axis across which the face
stands. Going down an axis the corners run the other way round, as the normal
does. The two axes beside the first and the third one turn to it as a right hand
does; the two beside the second one do not, and nothing makes up for it, so top
and bottom are wound against their normals.
-/

namespace SpatialDiagram

open scoped Scalar.Exact

namespace Axis

/-- Whether the two other axes, in their usual order, turn to this axis as a right hand does. The
second axis stands between the two others, so there the turn is the other way round. -/
def hand : Axis → Int
  | x => 1
  | y => -1
  | z => 1

end Axis

namespace Vec

/-- The cross product, by the right-hand rule. -/
def cross {α : Type} [Scalar α] (v w : Vec α) : Vec α :=
  ⟨v.y * w.z - v.z * w.y, v.z * w.x - v.x * w.z, v.x * w.y - v.y * w.x⟩

variable {K : Type} [Field K] [LinearOrder K]

/-- The two other axes turn into the axis itself, with the sign of its hand. -/
theorem cross_along_others (a : Axis) (r s : K) :
    (along a.others.1 r).cross (along a.others.2 s) = along a (a.hand * (r * s)) := by
  cases a <;> simp [Axis.others, Axis.hand, cross, along, modify, zero, uniform]

end Vec

namespace Face

/-- The direction to which the first two sides of a face with four corners turn. -/
def turn? {α : Type} [Scalar α] (f : Face α) : Option (Vec α) :=
  match f.vertices with
  | [a, b, c, _] => some ((b - a).cross (c - b))
  | _ => none

variable {K : Type} [Field K] [LinearOrder K]

/-- The way from one corner of a quad to another is made of its two sides. -/
theorem sub_corners (center : Vec K) (u v : Axis) (r s r' s' : K) :
    ((center.modify u (· + r')).modify v (· + s')) - ((center.modify u (· + r)).modify v (· + s)) =
      Vec.along u (r' - r) + Vec.along v (s' - s) := by
  apply Vec.ext_get
  intro a
  simp only [Vec.get_sub, Vec.get_add, Vec.get_modify, Vec.get_along]
  split <;> split <;> ring

/-- The first side of a rectangle runs along the first axis, and the second side along the second
axis, backwards if the winding is reversed. -/
theorem exists_quad (center half : Vec K) (u v : Axis) (flip : Bool) :
    ∃ a b c d, quad center half u v flip = [a, b, c, d] ∧
      b - a = Vec.along u (2 * half.get u) ∧
      c - b = Vec.along v ((if flip then -1 else 1) * (2 * half.get v)) := by
  have hforth (r : K) : r - -r = 2 * r := by ring
  have hback (r : K) : -r - r = -1 * (2 * r) := by ring
  cases flip <;>
    refine ⟨_, _, _, _, rfl, ?_, ?_⟩ <;>
    simp [sub_corners, hforth, hback]

/-- A rectangle across an axis, as wide as the extents along the two others. -/
structure IsAcross (f : Face K) (t : Transform K) (axis : Axis) (forward : Bool) : Prop where
  normal : f.normal = Vec.along axis (Scalar.ofInt (if forward then 1 else -1))
  vertices : f.vertices = quad f.center t.scale.half axis.others.1 axis.others.2 (!forward)

/-- The faces of a box across the second axis have the names of top and bottom. -/
theorem exists_isAcross (t : Transform K) : ∀ f ∈ boxFaces t ++ plateFaces t,
    ∃ axis forward, f.IsAcross t axis forward ∧ (axis = .y ↔ f.id ∈ ["top", "bottom"]) := by
  have hbox (id : String) (axis : Axis) (forward : Bool)
      (hid : axis = .y ↔ id ∈ ["top", "bottom"]) : ∃ axis' forward',
        (ofBox t id axis forward).IsAcross t axis' forward' ∧
          (axis' = .y ↔ (ofBox t id axis forward).id ∈ ["top", "bottom"]) :=
    ⟨axis, forward, ⟨rfl, rfl⟩, hid⟩
  simp only [boxFaces, plateFaces, List.forall_mem_append, List.forall_mem_cons,
    List.not_mem_nil, false_implies, implies_true, and_true]
  refine ⟨⟨?_, ?_, ?_, ?_, ?_, ?_⟩, ?_⟩
  · exact hbox _ _ _ (by decide)
  · exact hbox _ _ _ (by decide)
  · exact hbox _ _ _ (by decide)
  · exact hbox _ _ _ (by decide)
  · exact hbox _ _ _ (by decide)
  · exact hbox _ _ _ (by decide)
  · exact ⟨.z, true, ⟨rfl, rfl⟩, by decide⟩

variable [IsStrictOrderedRing K]

/-- A rectangle turns by its area, to the side that its axis decides. -/
theorem IsAcross.turn {f : Face K} {t : Transform K} {axis : Axis} {forward : Bool}
    (h : f.IsAcross t axis forward) : f.turn? = some (f.normal.scaled
      (axis.hand * (t.scale.get axis.others.1 * t.scale.get axis.others.2))) := by
  obtain ⟨a, b, c, d, hquad, hfirst, hsecond⟩ :=
    exists_quad f.center t.scale.half axis.others.1 axis.others.2 (!forward)
  have hvertices : f.vertices = [a, b, c, d] := h.vertices.trans hquad
  rw [turn?, hvertices, h.normal, ← Vec.along_mul]
  simp only [hfirst, hsecond, Vec.cross_along_others, Vec.get_half, Scalar.exact_ofInt]
  congr 2
  cases forward <;>
    simp only [Bool.not_true, Bool.not_false, Bool.false_eq_true, if_true, if_false, Int.cast_one,
      Int.cast_neg] <;>
    ring

/-- Seen from the side to which it looks, a face has its corners in counterclockwise order. -/
def IsCounterclockwise (f : Face K) : Prop := ∃ k, 0 < k ∧ f.turn? = some (f.normal.scaled k)

/-- The face turns against its own normal: seen from outside, its corners run clockwise. -/
def IsClockwise (f : Face K) : Prop := ∃ k, 0 < k ∧ f.turn? = some (f.normal.scaled (-k))

section

variable {f : Face K} {t : Transform K} {axis : Axis} {forward : Bool}
  (h : f.IsAcross t axis forward) (hscale : ∀ a, 0 < t.scale.get a)

include h

/-- The normal is no zero vector, so it shows by how much a face turns. -/
theorem IsAcross.turn_eq_iff (k : K) : f.turn? = some (f.normal.scaled k) ↔
    k = axis.hand * (t.scale.get axis.others.1 * t.scale.get axis.others.2) := by
  rw [h.turn, Option.some.injEq]
  constructor
  · intro hscaled
    have hget := congrArg (Vec.get · axis) hscaled
    rw [h.normal] at hget
    cases forward <;> simpa using hget.symm
  · rintro rfl
    rfl

include hscale

/-- A face is counterclockwise exactly off the second axis. -/
theorem IsAcross.isCounterclockwise_iff : f.IsCounterclockwise ↔ axis ≠ .y := by
  have harea := mul_pos (hscale axis.others.1) (hscale axis.others.2)
  simp only [IsCounterclockwise, h.turn_eq_iff, exists_eq_right]
  rw [mul_pos_iff_of_pos_right harea, Int.cast_pos]
  cases axis <;> decide

/-- A face is clockwise exactly on the second axis. -/
theorem IsAcross.isClockwise_iff : f.IsClockwise ↔ axis = .y := by
  have harea := mul_pos (hscale axis.others.1) (hscale axis.others.2)
  simp only [IsClockwise, h.turn_eq_iff, neg_eq_iff_eq_neg, exists_eq_right]
  rw [← neg_mul, mul_pos_iff_of_pos_right harea, ← Int.cast_neg, Int.cast_pos]
  cases axis <;> decide

end

/-- Seen from outside the corners of a face run counterclockwise, but those of top and bottom run
clockwise. Only boxes and plates have faces with corners. -/
theorem winding_of_faces :
    (∀ t : Transform K, (∀ a, 0 < t.scale.get a) → ∀ f ∈ boxFaces t ++ plateFaces t,
      (f.IsCounterclockwise ↔ f.id ∉ ["top", "bottom"]) ∧
        (f.IsClockwise ↔ f.id ∈ ["top", "bottom"])) ∧
    ∀ (shape : Shape) (t : Transform Float), ∀ f ∈ generate shape t, f.vertices ≠ [] →
      f ∈ boxFaces t ++ plateFaces t := by
  constructor
  · intro t hscale f hf
    obtain ⟨axis, forward, hacross, haxis⟩ := exists_isAcross t f hf
    rw [hacross.isCounterclockwise_iff hscale, hacross.isClockwise_iff hscale, ne_eq, haxis]
    exact ⟨Iff.rfl, Iff.rfl⟩
  · intro shape t f hf hvertices
    cases shape with
    | box => exact List.mem_append_left _ hf
    | plate => exact List.mem_append_right _ hf
    | manyFaced =>
        obtain ⟨i, -, rfl⟩ := List.mem_map.mp hf
        exact absurd rfl hvertices

/-- The faces of the unit cube. -/
theorem winding_of_faces_unit :
    let t : Transform ℚ := Transform.unit
    (∀ a, 0 < t.scale.get a) ∧ (ofBox t "front" .z true).IsCounterclockwise ∧
      (ofBox t "bottom" .y false).IsClockwise ∧ ∀ f ∈ plateFaces t, f.IsCounterclockwise := by
  intro t
  have hscale : ∀ a, 0 < t.scale.get a := by
    intro a
    cases a <;> decide
  have hfaces := winding_of_faces.1 t hscale
  refine ⟨hscale, ?_, ?_, ?_⟩
  · exact (hfaces _ (by simp [boxFaces])).1.mpr (by decide)
  · exact (hfaces _ (by simp [boxFaces])).2.mpr (by decide)
  · intro f hf
    obtain rfl := List.mem_singleton.mp hf
    exact (hfaces _ (List.mem_append_right _ hf)).1.mpr (by decide)

/-- The top of a cube looks up, and its corners turn down. -/
theorem top_turns_down :
    let f : Face ℚ := ofBox Transform.unit "top" .y true
    f ∈ boxFaces (Transform.unit : Transform ℚ) ∧ f.normal = ⟨0, 1, 0⟩ ∧
      f.turn? = some ⟨0, -1, 0⟩ ∧ ¬ f.IsCounterclockwise := by
  intro f
  have hacross : f.IsAcross Transform.unit .y true := ⟨rfl, rfl⟩
  have hscale (a : Axis) : 0 < (Transform.unit : Transform ℚ).scale.get a := by
    cases a <;> decide
  have hturn : f.normal.scaled (-1) = ⟨0, -1, 0⟩ := by
    simp [hacross.normal, Vec.along, Vec.modify, Vec.scaled, Vec.map, Vec.zero, Vec.uniform]
  refine ⟨by simp [boxFaces, f], by decide, ?_, ?_⟩
  · rw [← hturn, hacross.turn_eq_iff]
    simp [Axis.hand, Axis.others, Transform.unit, Vec.get, Vec.one, Vec.uniform]
  · rw [hacross.isCounterclockwise_iff hscale]
    decide

end Face

end SpatialDiagram
