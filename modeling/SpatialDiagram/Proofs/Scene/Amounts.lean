import Mathlib.Algebra.Group.Int.Defs
import Mathlib.Data.List.Forall2
import SpatialDiagram.Decimal.Binary64
import SpatialDiagram.Value.Access

/-!
# Values that are alike

Two values are alike if they have the same shape, with lists and mappings in the
same order, and if their numbers are the same amount. An integer is compared
with the exact value of a floating-point number, and a NaN is like any other. A
number is exact if reading it as a floating-point number keeps its amount.
-/

namespace SpatialDiagram

/-- Whether a finite number stands for an integer. -/
def Decimal.Parts.isInt (p : Parts) (n : Int) : Bool :=
  (if p.negative then -(p.mantissa : Int) else p.mantissa) * 2 ^ p.exponent.toNat =
    n * 2 ^ (-p.exponent).toNat

namespace Number

/-- Whether two numbers are the same amount. -/
def alike : Number → Number → Bool
  | int a, int b => a = b
  | int a, float b => b.isFinite && (Decimal.parts b).isInt a
  | float a, int b => a.isFinite && (Decimal.parts a).isInt b
  | float a, float b => a = b || a == b || (a.isNaN && b.isNaN)

@[simp] theorem alike_refl (n : Number) : n.alike n = true := by
  cases n <;> simp [alike]

/-- The number can be read as a floating-point number of the same amount. -/
def IsExact (n : Number) : Prop := ∃ x, n.toFloat? = some x ∧ (float x).alike n = true

theorem isExact_float (x : Float) : (float x).IsExact := ⟨x, rfl, alike_refl _⟩

theorem isExact_zero : (int 0).IsExact := ⟨0.0, by decide +kernel, by decide +kernel⟩

theorem isExact_one : (int 1).IsExact := ⟨1.0, by decide +kernel, by decide +kernel⟩

end Number

namespace Value

mutual

/-- Whether two values have the same shape and order and the same amounts. -/
def alike : Value → Value → Bool
  | list as, list bs => alikeItems as bs
  | mapping as, mapping bs => alikeEntries as bs
  | a, b =>
      match Number.ofValue? a, Number.ofValue? b with
      | some m, some n => m.alike n
      | _, _ => a = b

def alikeItems : List Value → List Value → Bool
  | [], [] => true
  | a :: as, b :: bs => alike a b && alikeItems as bs
  | _, _ => false

def alikeEntries : List (Value × Value) → List (Value × Value) → Bool
  | [], [] => true
  | (k, a) :: as, (l, b) :: bs => k = l && alike a b && alikeEntries as bs
  | _, _ => false

end

mutual

theorem alike_refl : ∀ v : Value, alike v v = true
  | null => by simp [alike, Number.ofValue?]
  | bool b => by simp [alike, Number.ofValue?]
  | int n => by simp [alike, Number.ofValue?]
  | float x => by simp [alike, Number.ofValue?]
  | str s => by simp [alike, Number.ofValue?]
  | list items => by rw [alike, alikeItems_refl items]
  | mapping entries => by rw [alike, alikeEntries_refl entries]

theorem alikeItems_refl : ∀ vs : List Value, alikeItems vs vs = true
  | [] => by rw [alikeItems]
  | v :: vs => by rw [alikeItems, alike_refl v, alikeItems_refl vs]; rfl

theorem alikeEntries_refl : ∀ es : List (Value × Value), alikeEntries es es = true
  | [] => by rw [alikeEntries]
  | (k, v) :: es => by simp [alikeEntries, alike_refl v, alikeEntries_refl es]

end

/-- Numbers are alike exactly if the values they are written as are. -/
theorem alike_toValue (m n : Number) : m.toValue.alike n.toValue = m.alike n := by
  cases m <;> cases n <;> simp [Number.toValue, alike, Number.ofValue?, Number.alike]

theorem alikeItems_map_iff {α : Type} {f g : α → Value} {xs : List α} :
    alikeItems (xs.map f) (xs.map g) = true ↔ ∀ x ∈ xs, (f x).alike (g x) = true := by
  induction xs with
  | nil => simp [alikeItems]
  | cons x xs ih => rw [List.map_cons, List.map_cons, alikeItems, Bool.and_eq_true, ih,
      List.forall_mem_cons]

/-- Records are alike if their fields are, one by one. -/
theorem alike_record_iff {fs gs : List (String × Value)} :
    (record fs).alike (record gs) = true ↔
      List.Forall₂ (fun f g => f.1 = g.1 ∧ f.2.alike g.2 = true) fs gs := by
  rw [record, record, alike]
  induction fs generalizing gs with
  | nil => cases gs <;> simp [alikeEntries]
  | cons f fs ih => cases gs <;> simp [alikeEntries, ih]

end Value

end SpatialDiagram
