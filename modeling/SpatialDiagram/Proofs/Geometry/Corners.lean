import Mathlib.Algebra.Order.Ring.Rat
import Mathlib.Data.List.Count
import Mathlib.Data.List.Forall2
import Mathlib.Data.List.Nodup
import Mathlib.Tactic.Ring
import SpatialDiagram.Geometry.Face
import SpatialDiagram.Proofs.Geometry.ExactArithmetic

/-!
# The corners of boxes

A corner of a box lies at one of the two ends along each axis, so a choice of
ends names it. The face across an axis takes the end to which it looks along
this axis and runs through all choices along the two others. Hence each corner
belongs to three faces, one across each axis, and the middle of a face is where
its axis leaves the box.
-/

namespace SpatialDiagram

open scoped Scalar.Exact

namespace Box

/-- The corner of a box at the chosen end along each axis, `true` for the upper one. -/
def corner {α : Type} (b : Box α) (upper : Vec Bool) : Vec α where
  x := if upper.x then b.max.x else b.min.x
  y := if upper.y then b.max.y else b.min.y
  z := if upper.z then b.max.z else b.min.z

/-- A coordinate of a corner is that of the upper or of the lower end. -/
theorem get_corner {α : Type} (b : Box α) (upper : Vec Bool) (a : Axis) :
    (b.corner upper).get a = if upper.get a then b.max.get a else b.min.get a := by
  cases a <;> rfl

/-- All choices of an end along each axis. -/
def choices : List (Vec Bool) :=
  [false, true].flatMap fun x => [false, true].flatMap fun y => [false, true].map fun z => ⟨x, y, z⟩

/-- All eight choices are listed. -/
theorem mem_choices (upper : Vec Bool) : upper ∈ choices := by
  obtain ⟨x, y, z⟩ := upper
  cases x <;> cases y <;> cases z <;> decide

/-- The eight corners of a box. -/
def corners {α : Type} (b : Box α) : List (Vec α) := choices.map b.corner

variable {K : Type} [Field K] [LinearOrder K] [IsStrictOrderedRing K]

/-- Along each axis a box of positive extent has two different ends. -/
theorem corner_injective {t : Transform K} (hscale : ∀ a, 0 < t.scale.get a) :
    Function.Injective (ofTransform t).corner := by
  intro upper upper' h
  apply Vec.ext_get
  intro a
  have hends : (ofTransform t).min.get a < (ofTransform t).max.get a := by
    have hhalf : 0 < t.scale.half.get a := by
      rw [Vec.get_half]
      exact half_pos (hscale a)
    rw [ofTransform, Vec.get_sub, Vec.get_add]
    exact (sub_lt_self _ hhalf).trans (lt_add_of_pos_right _ hhalf)
  have hget := congrArg (Vec.get · a) h
  simp only [get_corner] at hget
  cases hu : upper.get a <;> cases hu' : upper'.get a <;> simp_all [hends.ne, hends.ne']

end Box

namespace Face

variable {K : Type} [Field K] [LinearOrder K]

/-! ## Where a face lies -/

/-- The direction of an end of a box from the middle. -/
def endSign (upper : Bool) : K := Scalar.ofInt (if upper then 1 else -1)

/-- An end of the box of a node is half its extent away from its position. -/
theorem add_endSign_mul (t : Transform K) (a : Axis) (upper : Bool) :
    t.position.get a + endSign upper * t.scale.half.get a =
      if upper then (Box.ofTransform t).max.get a else (Box.ofTransform t).min.get a := by
  cases upper <;> simp [endSign, Box.ofTransform, sub_eq_add_neg]

/-- The middle of a face is the middle of the box, moved along its axis to the end. -/
theorem center_ofBox (t : Transform K) (id : String) (axis : Axis) (forward : Bool) :
    (ofBox t id axis forward).center = t.position +
      (Vec.along axis (endSign forward)).scaled (t.scale.half.get axis) := by
  apply Vec.ext_get
  intro a
  change (t.position + (Vec.along axis (endSign forward)).mul t.scale.half).get a = _
  simp only [Vec.get_add, Vec.get_mul, Vec.get_scaled, Vec.get_along]
  split
  · rename_i ha
    rw [ha]
  · rw [zero_mul, zero_mul]

/-- The centre of a face is half an extent from that of the box, along its own axis only. -/
theorem get_center_ofBox (t : Transform K) (id : String) (axis : Axis) (forward : Bool)
    (a : Axis) : (ofBox t id axis forward).center.get a =
      if axis = a then t.position.get a + endSign forward * t.scale.half.get a
      else t.position.get a := by
  rw [center_ofBox, Vec.get_add, Vec.get_scaled, Vec.get_along]
  split
  · rename_i ha
    rw [ha]
  · rw [zero_mul, add_zero]

/-- The choices along two axes in the order in which a face lists its corners. -/
def ends : List (Bool × Bool) := [(false, false), (true, false), (true, true), (false, true)]

/-- The choice of one end along an axis and of others along the two other axes. -/
def choice (axis : Axis) (forward : Bool) (c : Bool × Bool) : Vec Bool :=
  ((⟨forward, forward, forward⟩ : Vec Bool).modify axis.others.1 fun _ => c.1).modify
    axis.others.2 fun _ => c.2

/-- The four choices of a face, in the order in which its quad lists them. -/
def faceChoices (axis : Axis) (forward : Bool) : List (Vec Bool) :=
  (if forward then ends else ends.reverse).map (choice axis forward)

/-- A vertex of a face is the corner of the box on its side. -/
theorem vertex_eq_corner (t : Transform K) (id : String) (axis : Axis) (forward : Bool)
    (c : Bool × Bool) :
    (((ofBox t id axis forward).center.modify axis.others.1
        (· + endSign c.1 * t.scale.half.get axis.others.1)).modify axis.others.2
        (· + endSign c.2 * t.scale.half.get axis.others.2)) =
      (Box.ofTransform t).corner (choice axis forward c) := by
  apply Vec.ext_get
  intro a
  rw [Box.get_corner, ← add_endSign_mul]
  simp only [choice, Vec.get_modify, get_center_ofBox]
  cases axis <;> cases a <;> simp [Axis.others, Vec.get]

/-- The vertices of a face are the corners that its choices name. -/
theorem vertices_ofBox (t : Transform K) (id : String) (axis : Axis) (forward : Bool) :
    (ofBox t id axis forward).vertices =
      (faceChoices axis forward).map (Box.ofTransform t).corner := by
  have hordered : (if (!forward) = true then corners.reverse else corners : List (K × K)) =
      (if forward then ends else ends.reverse).map fun c => (endSign c.1, endSign c.2) := by
    cases forward <;> rfl
  change quad (ofBox t id axis forward).center t.scale.half axis.others.1 axis.others.2 (!forward) =
    _
  rw [quad, hordered, faceChoices, List.map_map, List.map_map]
  exact List.map_congr_left fun c _ => vertex_eq_corner t id axis forward c

/-- Around its centre a rectangle is as wide to the one side as to the other. -/
theorem sum_quad (center half : Vec K) (u v : Axis) (flip : Bool) (a : Axis) :
    ((quad center half u v flip).map (Vec.get · a)).sum = 4 * center.get a := by
  cases flip <;> simp [quad, corners, Vec.get_modify] <;> split <;> split <;> ring

/-! ## All faces of a box -/

/-- The names of the faces of a box, with the axis and the direction in which each looks. -/
def sides : List (String × Axis × Bool) :=
  [("front", .z, true), ("back", .z, false), ("top", .y, true), ("bottom", .y, false),
    ("right", .x, true), ("left", .x, false)]

theorem boxFaces_eq (t : Transform K) :
    boxFaces t = sides.map fun s => ofBox t s.1 s.2.1 s.2.2 := rfl

/-- The vertices of all faces are corners of the box, named face by face. -/
theorem flatMap_vertices (t : Transform K) : (boxFaces t).flatMap Face.vertices =
    (sides.flatMap fun s => faceChoices s.2.1 s.2.2).map (Box.ofTransform t).corner := by
  rw [boxFaces_eq, List.flatMap_map, List.map_flatMap]
  simp only [vertices_ofBox]

/-- Each choice of ends belongs to the face at the chosen end of each of the three axes. -/
theorem count_faceChoices (upper : Vec Bool) :
    (sides.flatMap fun s => faceChoices s.2.1 s.2.2).count upper = 3 := by
  have hall : ∀ upper ∈ Box.choices,
      (sides.flatMap fun s => faceChoices s.2.1 s.2.2).count upper = 3 := by decide
  exact hall upper (Box.mem_choices upper)

/-- A face of four corners of a box, in the middle of which an axis leaves the box. -/
structure FitsSide (f : Face K) (b : Box K) (axis : Axis) (forward : Bool) : Prop where
  length : f.vertices.length = 4
  vertices : ∀ v ∈ f.vertices, v ∈ b.corners
  mean : ∀ a, f.center.get a = (f.vertices.map (Vec.get · a)).sum / f.vertices.length
  normal : f.normal = Vec.along axis (endSign forward)
  moved : ∃ k, 0 < k ∧ f.center = b.center + f.normal.scaled k
  reaches : f.center.get axis = if forward then b.max.get axis else b.min.get axis

section

variable [IsStrictOrderedRing K] {t : Transform K} (hscale : ∀ a, 0 < t.scale.get a)

include hscale

/-- Every face of a box fits the side it is named for. -/
theorem fitsSide_ofBox (id : String) (axis : Axis) (forward : Bool) :
    (ofBox t id axis forward).FitsSide (Box.ofTransform t) axis forward := by
  have hlength : (ofBox t id axis forward).vertices.length = 4 := by
    rw [vertices_ofBox]
    cases forward <;> rfl
  constructor
  case length => exact hlength
  case vertices =>
    intro v hv
    rw [vertices_ofBox] at hv
    obtain ⟨upper, -, rfl⟩ := List.mem_map.mp hv
    exact List.mem_map_of_mem (Box.mem_choices upper)
  case mean =>
    intro a
    have hsum : ((ofBox t id axis forward).vertices.map (Vec.get · a)).sum =
        4 * (ofBox t id axis forward).center.get a := sum_quad _ _ _ _ _ a
    rw [hsum, hlength, Nat.cast_ofNat, mul_div_cancel_left₀ _ four_ne_zero]
  case normal => rfl
  case moved =>
    refine ⟨t.scale.half.get axis, ?_, center_ofBox t id axis forward⟩
    rw [Vec.get_half]
    exact half_pos (hscale axis)
  case reaches => rw [get_center_ofBox, if_pos rfl, add_endSign_mul]

/-- Each face of a box fits the side that has its name, and the corners of all faces are the eight
corners of the box, each of them three times. -/
theorem boxFaces_fit :
    List.Forall₂ (fun s f => f.id = s.1 ∧ f.FitsSide (Box.ofTransform t) s.2.1 s.2.2) sides
        (boxFaces t) ∧
      ((boxFaces t).flatMap Face.vertices).length = 24 ∧
      (Box.ofTransform t).corners.Nodup ∧ (Box.ofTransform t).corners.length = 8 ∧
      ∀ v ∈ (Box.ofTransform t).corners, ((boxFaces t).flatMap Face.vertices).count v = 3 := by
  have hinjective := Box.corner_injective hscale
  refine ⟨?_, ?_, ?_, rfl, ?_⟩
  · rw [boxFaces_eq, List.forall₂_map_right_iff, List.forall₂_same]
    exact fun s _ => ⟨rfl, fitsSide_ofBox hscale s.1 s.2.1 s.2.2⟩
  · rw [flatMap_vertices, List.length_map]
    rfl
  · exact List.Nodup.map hinjective (by decide)
  · intro v hv
    obtain ⟨upper, -, rfl⟩ := List.mem_map.mp hv
    rw [flatMap_vertices, List.count_map_of_injective _ _ hinjective, count_faceChoices]

end

/-- A box away from the origin, longer along each axis than along the one before. -/
theorem boxFaces_fit_oblong :
    let t : Transform ℚ := ⟨⟨1, 2, 3⟩, Vec.zero, ⟨2, 4, 6⟩⟩
    (∀ a, 0 < t.scale.get a) ∧ ⟨2, 0, 6⟩ ∈ (Box.ofTransform t).corners ∧
      ((boxFaces t).flatMap Face.vertices).count ⟨2, 0, 6⟩ = 3 ∧
      (ofBox t "bottom" .y false).FitsSide (Box.ofTransform t) .y false := by
  intro t
  have hscale : ∀ a, 0 < t.scale.get a := by
    intro a
    cases a <;> decide
  obtain ⟨hsides, -, -, -, hcount⟩ := boxFaces_fit hscale
  have hcorner : (⟨2, 0, 6⟩ : Vec ℚ) ∈ (Box.ofTransform t).corners := by decide +kernel
  simp only [sides, boxFaces, List.forall₂_cons] at hsides
  obtain ⟨-, -, -, ⟨-, hbottom⟩, -⟩ := hsides
  exact ⟨hscale, hcorner, hcount _ hcorner, hbottom⟩

end Face

end SpatialDiagram
