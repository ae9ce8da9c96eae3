import SpatialDiagram.Geometry.Scalar

/-!
# Vectors

Vectors with three components, the three axes, and access to a component by
its axis.
-/

namespace SpatialDiagram

/-- Three components along the axes. -/
structure Vec (α : Type) where
  x : α
  y : α
  z : α
deriving DecidableEq, Repr

/-- The three directions of space. -/
inductive Axis where
  | x
  | y
  | z
deriving DecidableEq, Repr

namespace Axis

/-- The two other axes in their usual order. -/
def others : Axis → Axis × Axis
  | x => (y, z)
  | y => (x, z)
  | z => (x, y)

end Axis

namespace Vec

variable {α : Type}

/-- The component along an axis. -/
def get (v : Vec α) : Axis → α
  | .x => v.x
  | .y => v.y
  | .z => v.z

/-- Replaces the component on one axis. -/
def modify (v : Vec α) (a : Axis) (f : α → α) : Vec α :=
  match a with
  | .x => { v with x := f v.x }
  | .y => { v with y := f v.y }
  | .z => { v with z := f v.z }

theorem get_modify (v : Vec α) (a b : Axis) (f : α → α) :
    (v.modify a f).get b = if a = b then f (v.get b) else v.get b := by
  cases a <;> cases b <;> rfl

theorem ext_get {v w : Vec α} (h : ∀ a, v.get a = w.get a) : v = w := by
  cases v; cases w
  exact congr (congr (congrArg Vec.mk (h .x)) (h .y)) (h .z)

/-- The components in the order of the axes. -/
def components (v : Vec α) : List α := [v.x, v.y, v.z]

/-- Applies a function to each component. -/
def map {β : Type} (f : α → β) (v : Vec α) : Vec β := ⟨f v.x, f v.y, f v.z⟩

/-- Combines the components of two vectors along each axis. -/
def zip {β γ : Type} (f : α → β → γ) (v : Vec α) (w : Vec β) : Vec γ :=
  ⟨f v.x w.x, f v.y w.y, f v.z w.z⟩

variable [Scalar α]

/-- The vector with the same component along all axes. -/
def uniform (a : α) : Vec α := ⟨a, a, a⟩

/-- The vector of zeros. -/
def zero : Vec α := uniform Scalar.zero

/-- The vector of ones. -/
def one : Vec α := uniform Scalar.one

instance : Inhabited (Vec α) := ⟨zero⟩

/-- The sum of two vectors. -/
def add (v w : Vec α) : Vec α := v.zip (· + ·) w

/-- The difference of two vectors. -/
def sub (v w : Vec α) : Vec α := v.zip (· - ·) w

/-- The product component by component. -/
def mul (v w : Vec α) : Vec α := v.zip (· * ·) w

/-- A vector with all components multiplied by a factor. -/
def scaled (v : Vec α) (factor : α) : Vec α := v.map (· * factor)

/-- A vector with all components halved. -/
def half (v : Vec α) : Vec α := v.map (· / Scalar.two)

instance : Add (Vec α) := ⟨add⟩

instance : Sub (Vec α) := ⟨sub⟩

/-- The vector along an axis that has the given length and sign there. -/
def along (a : Axis) (s : α) : Vec α := zero.modify a fun _ => s

end Vec

end SpatialDiagram
