import SpatialDiagram.Config.Complaint

/-!
# Schemas

A schema says which values a field may have. Checking a value gives all
complaints about it; those about the entries of a mapping stand in the order of
the entries. A null and a value of the wrong type are each the only complaint
about a field.
-/

namespace SpatialDiagram

/-- What is asked of a number. -/
inductive NumberRule where
  | positive
  | unitInterval
deriving DecidableEq, Repr

/-- What is asked of a text. -/
inductive TextRule where
  | oneOf (names : List String)
  | notEmpty
deriving DecidableEq, Repr

/-- What is asked of a value. -/
inductive Schema where
  | text (rule : TextRule)
  | number (rule : NumberRule)
  /-- A mapping in which only the given fields may occur. -/
  | record (fields : List (String × Schema))
  /-- A mapping from any texts to values of one schema. -/
  | table (values : Schema)
deriving Repr

namespace NumberRule

/-- Whether a number is zero or negative; a NaN is not. -/
def isAtMostZero : Number → Bool
  | .int n => n ≤ 0
  | .float x => x ≤ 0.0

/-- Whether a number is negative; a NaN is not. -/
def isBelowZero : Number → Bool
  | .int n => n < 0
  | .float x => x < 0.0

/-- Whether a number is greater than one; a NaN is not. -/
def isAboveOne : Number → Bool
  | .int n => 1 < n
  | .float x => 1.0 < x

/-- What is said of a number that is not positive, which shows the number. -/
def notPositive? (n : Number) : Option String :=
  if n.toValue.isWritable then some ("must be a positive number, got " ++ n.toValue.display)
  else none

/-- The complaints about a number. One that is not positive is shown in its complaint. -/
def complaints (n : Number) : NumberRule → List Complaint
  | positive => if isAtMostZero n then [.plain .whole (notPositive? n)] else []
  | unitInterval =>
      (if isBelowZero n then [.plain .atLeast "min value is 0"] else []) ++
        (if isAboveOne n then [.plain .atMost "max value is 1"] else [])

end NumberRule

namespace TextRule

/-- The complaints about a text. -/
def complaints (s : String) : TextRule → List Complaint
  | oneOf names => if s ∈ names then [] else [.plain .oneOf ("unallowed value " ++ s)]
  | notEmpty => if s = "" then [.plain .notEmpty "empty values not allowed"] else []

end TextRule

namespace Schema

/-- That a value is null. -/
def noNull : Complaint := .plain .notNull "null value not allowed"

/-- That a value is of another type than the named one. -/
def wrongType (name : String) : Complaint := .plain .type ("must be of " ++ name ++ " type")

/-- That a record knows no field of this name. -/
def unknownField : Complaint := .plain .whole "unknown field"

/-- Complaints about a key, which has to be a text. -/
def keyComplaints : Value → List Complaint
  | .str _ => []
  | .null => [noNull]
  | _ => [wrongType "string"]

/-- The complaints about entries, each with the key of its entry. -/
def findingsOf (found : List (Value × List Complaint)) : List Finding :=
  found.flatMap fun f => f.2.map fun c => (f.1, c)

/-- One complaint that holds those about entries, if there are any. -/
def nested (rule : Rule) (found : List (Value × List Complaint)) : List Complaint :=
  if (findingsOf found).isEmpty then [] else [.nested rule (findingsOf found)]

mutual

/-- The complaints about a value. -/
def complaints (s : Schema) (v : Value) : List Complaint :=
  match s, v with
  | _, .null => [noNull]
  | text rule, .str t => rule.complaints t
  | text _, _ => [wrongType "string"]
  | number rule, v =>
      match Number.ofValue? v with
      | some n => rule.complaints n
      | none => [wrongType "number"]
  | record fields, .mapping entries =>
      nested .fields (entries.map fun e => (e.1, fieldComplaints fields e))
  | table values, .mapping entries =>
      nested .keys (entries.map fun e => (e.1, keyComplaints e.1)) ++
        nested .values (entries.map fun e => (e.1, complaints values e.2))
  | _, _ => [wrongType "dict"]

/-- The complaints about an entry of a record. -/
def fieldComplaints (fields : List (String × Schema)) (entry : Value × Value) : List Complaint :=
  match fields with
  | [] => [unknownField]
  | (name, s) :: rest =>
      if entry.1 = .str name then complaints s entry.2 else fieldComplaints rest entry

end

/-- The complaints about a whole document. -/
def check (fields : List (String × Schema)) (entries : List (Value × Value)) : List Finding :=
  findingsOf (entries.map fun e => (e.1, fieldComplaints fields e))

end Schema

end SpatialDiagram
