/-!
# Dynamic values

Properties of nodes, metadata, configuration documents and serialised graphs
hold values of one type: nothing, a truth value, an integer, a floating-point
number, a text, a list, or a mapping that keeps the order of its entries.
Equality is that of the representation, so the integer 1 and the number 1.0
differ.
-/

namespace SpatialDiagram

/-- A value of any kind. -/
inductive Value where
  | null
  | bool (b : Bool)
  | int (n : Int)
  | float (x : Float)
  | str (s : String)
  | list (items : List Value)
  | mapping (entries : List (Value × Value))
deriving Repr, Inhabited

namespace Value

mutual

/-- Whether two values have the same shape and the same content. -/
def same : Value → Value → Bool
  | null, null => true
  | bool a, bool b => a = b
  | int a, int b => a = b
  | float a, float b => a = b
  | str a, str b => a = b
  | list as, list bs => sameItems as bs
  | mapping as, mapping bs => sameEntries as bs
  | _, _ => false

/-- Whether two lists have the same items. -/
def sameItems : List Value → List Value → Bool
  | [], [] => true
  | a :: as, b :: bs => same a b && sameItems as bs
  | _, _ => false

/-- Whether two mappings have the same entries in the same order. -/
def sameEntries : List (Value × Value) → List (Value × Value) → Bool
  | [], [] => true
  | (k, a) :: as, (l, b) :: bs => same k l && same a b && sameEntries as bs
  | _, _ => false

end

mutual

/-- The comparison of values decides their equality. -/
theorem same_iff : ∀ a b : Value, same a b = true ↔ a = b
  | null, b => by cases b <;> simp [same]
  | bool _, b => by cases b <;> simp [same]
  | int _, b => by cases b <;> simp [same]
  | float _, b => by cases b <;> simp [same]
  | str _, b => by cases b <;> simp [same]
  | list as, b => by cases b <;> simp [same, sameItems_iff as]
  | mapping as, b => by cases b <;> simp [same, sameEntries_iff as]

/-- The comparison of lists of values decides their equality. -/
theorem sameItems_iff : ∀ as bs : List Value, sameItems as bs = true ↔ as = bs
  | [], bs => by cases bs <;> simp [sameItems]
  | a :: as, bs => by
      cases bs with
      | nil => simp [sameItems]
      | cons b bs => simp [sameItems, same_iff a b, sameItems_iff as bs]

/-- The comparison of entries decides their equality, in their order. -/
theorem sameEntries_iff : ∀ as bs : List (Value × Value), sameEntries as bs = true ↔ as = bs
  | [], bs => by cases bs <;> simp [sameEntries]
  | (k, a) :: as, bs => by
      cases bs with
      | nil => simp [sameEntries]
      | cons b bs =>
          obtain ⟨l, b⟩ := b
          simp [sameEntries, same_iff k l, same_iff a b, sameEntries_iff as bs, and_assoc]

end

instance : DecidableEq Value := fun a b => decidable_of_iff (same a b = true) (same_iff a b)

/-- The amount of a number; a truth value counts as one or zero. -/
def amount? : Value → Option Float
  | bool b => some (if b then 1.0 else 0.0)
  | int n => some (Float.ofInt n)
  | float x => some x
  | _ => none

mutual

/-- Whether two values are equal when numbers count by amount and truth values as numbers. A NaN
is equal to nothing. -/
def agrees : Value → Value → Bool
  | null, null => true
  | str a, str b => a = b
  | list as, list bs => agreeItems as bs
  | mapping as, mapping bs => agreeEntries as bs
  | int a, int b => a = b
  | a, b =>
      match a.amount?, b.amount? with
      | some x, some y => x == y
      | _, _ => false

/-- Whether the items of two lists agree one by one. -/
def agreeItems : List Value → List Value → Bool
  | [], [] => true
  | a :: as, b :: bs => agrees a b && agreeItems as bs
  | _, _ => false

/-- Whether the entries of two mappings agree one by one. -/
def agreeEntries : List (Value × Value) → List (Value × Value) → Bool
  | [], [] => true
  | (k, a) :: as, (l, b) :: bs => agrees k l && agrees a b && agreeEntries as bs
  | _, _ => false

end

/-- The name of a value's type in messages. -/
def typeName : Value → String
  | null => "NoneType"
  | bool _ => "bool"
  | int _ => "int"
  | float _ => "float"
  | str _ => "str"
  | list _ => "list"
  | mapping _ => "dict"

/-- Nothing, a zero, and an empty text or collection count as absent. -/
def isPresent : Value → Bool
  | null => false
  | bool b => b
  | int n => n ≠ 0
  | float x => x != 0.0
  | str s => s ≠ ""
  | list items => !items.isEmpty
  | mapping entries => !entries.isEmpty

/-- A collection cannot be the key of a mapping. -/
def isScalar : Value → Bool
  | list _ => false
  | mapping _ => false
  | _ => true

/-- A mapping whose keys are texts. -/
def record (fields : List (String × Value)) : Value :=
  mapping (fields.map fun f => (str f.1, f.2))

/-- The value that a mapping holds under a text. -/
def field? (v : Value) (name : String) : Option Value :=
  match v with
  | mapping entries => entries.lookup (str name)
  | _ => none

end Value

/-- A number as it was written: an exact integer or a floating-point number. -/
inductive Number where
  | int (n : Int)
  | float (x : Float)
deriving DecidableEq, Repr

namespace Number

instance : Inhabited Number := ⟨int 0⟩

/-- A number as a value. -/
def toValue : Number → Value
  | int n => .int n
  | float x => .float x

/-- The number a value is, if it is one; truth values are not. -/
def ofValue? : Value → Option Number
  | .int n => some (int n)
  | .float x => some (float x)
  | _ => none

/-- A number is read back from the value it is written as. -/
@[simp] theorem ofValue_toValue (n : Number) : ofValue? n.toValue = some n := by
  cases n <;> rfl

/-- The smallest magnitude that no finite number is nearest to. -/
def floatLimit : Nat := Nat.pow 2 1024 - Nat.pow 2 970

/-- The nearest floating-point number, unless the integer is beyond all of them. -/
def intToFloat? (n : Int) : Option Float :=
  if floatLimit ≤ n.natAbs then none else some (Float.ofInt n)

/-- The floating-point number nearest to a number, unless it is too large. -/
def toFloat? : Number → Option Float
  | int n => intToFloat? n
  | float x => some x

/-- Whether two numbers are the same amount; a NaN agrees with itself. -/
def agrees : Number → Number → Bool
  | int a, int b => a = b
  | float a, float b => a == b || (a.isNaN && b.isNaN)
  | int a, float b => Float.ofInt a == b
  | float a, int b => a == Float.ofInt b

/-- An integer has no float exactly when its magnitude is at the limit or beyond it. -/
theorem intToFloat_eq_none_iff (n : Int) : intToFloat? n = none ↔ floatLimit ≤ n.natAbs := by
  simp [intToFloat?]

end Number

end SpatialDiagram
